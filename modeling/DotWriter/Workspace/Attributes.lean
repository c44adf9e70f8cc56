import DotWriter.Attribute.Reading
import DotWriter.Workspace.Basic

/-!
# Tables in a workspace

Every tag, graph, node and edge has a table of attributes, graphs have two more for the defaults of
nodes and edges, and a table can also stand alone.

* `TablePlace` says where a table is kept;
* `Action.table` and `Action.changeTable` read and change the table at a place;
* `Action.addAttribute` and `Action.coerceAttribute` write an attribute.
-/

namespace DotWriter

/-- Where a table is kept. -/
inductive TablePlace
  | alone (n : Nat)
  | part (p : PartId)
  | graph (g : GraphId) (site : TableSite)
  | looseNode (n : Nat)

/-- The place of a table of an item, if it has one: the item itself, or the table of a role. -/
def Item.tablePlace? : Item → Option TableRole → Option TablePlace
  | .table n, none => some (.alone n)
  | .graph g, some role => some (.graph g (.own role))
  | .part p, some .attributes => some (.part p)
  | .node g key, some .attributes => some (.graph g (.node key))
  | .looseNode n, some .attributes => some (.looseNode n)
  | .edge g i, some .attributes => some (.graph g (.edge i))
  | _, _ => none

namespace Workspace

/-- The table at a place. -/
def table? (w : Workspace) : TablePlace → Option Table
  | .alone n => w.tables[n]?
  | .part p =>
    match w.parts[p]? with
    | some (.tag _ attributes _) => some attributes
    | _ => none
  | .graph g site => w.store.graphs[g]?.bind fun s => s.block.table? site
  | .looseNode n => w.looseNodes[n]?.map Node.attributes

/-- Replaces the table at a place. -/
def setTable (w : Workspace) (t : Table) : TablePlace → Workspace
  | .alone n => { w with tables := w.tables.set n t }
  | .part p =>
    { w with parts := w.parts.modify p fun part => match part with
        | .tag tag _ content => .tag tag t content
        | other => other }
  | .graph g site => { w with store := w.store.modifyBlock g fun b => b.setTable t site }
  | .looseNode n =>
    { w with looseNodes := w.looseNodes.modify n fun x => { x with attributes := t } }

end Workspace

namespace Action

/-- The place of a table of an item. -/
def placeOf (item : Item) (role : Option TableRole) : Action TablePlace :=
  liftExcept (Workspace.required (item.tablePlace? role))

/-- The table at a place. -/
def table (place : TablePlace) : Action Table := do
  liftExcept (Workspace.required ((← get).table? place))

/-- Changes the table at a place. -/
def changeTable (place : TablePlace) (f : Table → Except Fault Unit × Table) : Action Table := do
  let (result, t) := f (← table place)
  modify fun w => w.setTable t place
  liftExcept result
  return t

/-- Makes a new table that stands alone. -/
def addTable (legal : List AttributeId) : Action Item := do
  let w ← get
  set { w with tables := w.tables ++ [Table.ofLegal legal] }
  return .table w.tables.length

/-- Writes an attribute. -/
def addAttribute (place : TablePlace) (attr : AttributeId) (d : Datum) : Action Table :=
  changeTable place fun t => t.add attr d

/-- Reads a raw datum as the value of an attribute and writes it. -/
def coerceAttribute (place : TablePlace) (attr : AttributeId) (r : Raw) : Action Table := do
  let v ← liftExcept (coerce attr r)
  addAttribute place attr (.value v)

end Action

end DotWriter
