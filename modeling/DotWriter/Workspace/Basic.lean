import DotWriter.Graph.Store
import DotWriter.Label.Build
import DotWriter.Value.Arithmetic
import DotWriter.Value.Build

/-!
# Workspaces

A `Workspace` gives names to objects that are built step by step.  An object can have several names
and can be part of several others, and a change of it shows in all of them.

* `Part` is a part of a label that knows its own parts by number; `Workspace.node?` unfolds it;
* `Item` is what a name stands for; `Workspace.datum` is the item as an argument, as it is at that
  moment, and `Workspace.render` its text;
* `Workspace.equals` compares items: values by their parts, and all other objects by identity;
* `Action` is a computation that changes a workspace.  What it changed before it fails stays changed.
-/

namespace DotWriter

/-- The number of a part of a label. -/
abbrev PartId := Nat

/-- What a name stands for. -/
inductive Item
  /-- Data that never changes. -/
  | datum (d : Datum)
  | part (p : PartId)
  /-- A label as a value. -/
  | label (n : Nat)
  /-- A value that is a list and can grow. -/
  | list (n : Nat)
  | table (n : Nat)
  | graph (g : GraphId)
  /-- A node of a graph. -/
  | node (g : GraphId) (key : String)
  /-- A node of no graph. -/
  | looseNode (n : Nat)
  | edge (g : GraphId) (index : Nat)
  | registry (r : Nat)

/-- A part of a label. -/
inductive Part
  | chars (text : String)
  | text (items : List PartId)
  | tag (tag : Tag) (attributes : Table) (content : List PartId)
  /-- What a tag around a text was given instead of a part. -/
  | foreign (item : Item)

/-- Objects by number, and names for them. -/
structure Workspace where
  parts : List Part
  labels : List PartId
  lists : List Value
  tables : List Table
  looseNodes : List Node
  store : GraphStore
  names : List (String × Item)

namespace Workspace

/-- The workspace without objects. -/
def empty : Workspace := ⟨[], [], [], [], [], GraphStore.empty, []⟩

/-- What a name stands for. -/
def find? (w : Workspace) (name : String) : Option Item :=
  (w.names.find? fun e => e.1 == name).map (·.2)

/-- Gives a name to an item and takes it from the item that had it. -/
def bind (w : Workspace) (name : String) (item : Item) : Workspace :=
  { w with names := (name, item) :: w.names.filter fun e => e.1 != name }

/-- The node of a graph with the given written name. -/
def graphNode? (w : Workspace) (g : GraphId) (key : String) : Option Node := do
  (← w.store.graphs[g]?).block.find? key

/-- An edge of a graph. -/
def graphEdge? (w : Workspace) (g : GraphId) (index : Nat) : Option Edge := do
  (← w.store.graphs[g]?).block.edges[index]?

/-! ### Items as arguments -/

/-- A node as messages show it. -/
def nodeLiteral (key : String) : String := "Node(" ++ textLiteral key ++ ")"

/-- An edge as messages show it. -/
def edgeLiteral (e : Edge) : String :=
  "Edge(" ++ textLiteral e.tail ++ ", " ++ textLiteral e.head ++ ")"

/-- A graph as messages show it. -/
def graphLiteral (b : Block) : String :=
  "Graph(" ++ textLiteral b.name.render ++ ", GraphKind." ++ b.kind.name.toUpper ++ ")"

/-- What must be there. -/
def required {α : Type} : Option α → Except Fault α
  | some x => .ok x
  | none => .error .noSuchPart

/-- An item as an argument, where parts of labels are unfolded by `node?`.  The text of an edge
depends on its document. -/
def datumBy (w : Workspace) (node? : PartId → Option LabelNode) : Item → Datum
  | .datum d => d
  | .part p => ((node? p).map Datum.node).getD (.raw .null)
  | .label n => ((w.labels[n]?.bind node?).map fun c => .value (.label c)).getD (.raw .null)
  | .list n => (w.lists[n]?.map Datum.value).getD (.raw .null)
  | .table n =>
    .other "AttributeTable" none ((w.tables[n]?.map Table.size).getD 0 ≠ 0)
      (required (w.tables[n]?.map Table.render))
  | .graph g =>
    .other "Graph" (w.store.graphs[g]?.map fun s => graphLiteral s.block) true
      (required ((w.store.tree? g).map fun t => t.render RenderConfig.standard))
  | .node g key =>
    .other "Node" (some (nodeLiteral key)) true (required ((w.graphNode? g key).map Node.render))
  | .looseNode n =>
    .other "Node" (w.looseNodes[n]?.map fun x => nodeLiteral x.key) true
      (required (w.looseNodes[n]?.map Node.render))
  | .edge g i => .other "Edge" ((w.graphEdge? g i).map edgeLiteral) true (.error .wrongOperand)
  | .registry r => .other "Context" none (!(w.store.keysOf r).isEmpty) (.error .noSuchPart)

/-- A part of a label with all parts in it, down to the given depth. -/
def nodeTo (w : Workspace) : Nat → PartId → Option LabelNode
  | 0, _ => none
  | depth + 1, p =>
    match w.parts[p]? with
    | none => none
    | some (.chars s) => some (.chars s)
    | some (.text items) => .text <$> items.mapM (w.nodeTo depth)
    | some (.tag t attributes content) => .tag t attributes <$> content.mapM (w.nodeTo depth)
    | some (.foreign item) => some (.foreign (w.datumBy (w.nodeTo depth) item).render)

/-- A part of a label with all parts in it.  None is nested more deeply than there are parts. -/
def node? (w : Workspace) (p : PartId) : Option LabelNode := w.nodeTo w.parts.length p

/-- An item as an argument. -/
def datum (w : Workspace) (item : Item) : Datum := w.datumBy w.node? item

/-- The text of an item. -/
def render (w : Workspace) (item : Item) : Except Fault String := (w.datum item).render

/-- The text of an item wherever a text is wanted: an edge is shown as in messages. -/
def plain (w : Workspace) : Item → Except Fault String
  | .edge g i => required ((w.graphEdge? g i).map edgeLiteral)
  | item => w.render item

/-- Whether two items are equal. -/
def equals (w : Workspace) : Item → Item → Bool
  | .part p, .part q => p == q
  | .label m, .label n => m == n
  | .table m, .table n => m == n
  | .graph g, .graph h => g == h
  | .node g key, .node h other => g == h && key == other
  | .looseNode m, .looseNode n => m == n
  | .edge g i, .edge h j => g == h && i == j
  | .registry r, .registry s => r == s
  | a, b =>
    match w.datum a, w.datum b with
    | .value x, .value y => x.equals y
    | .raw x, .raw y => x.equals y
    | _, _ => false

end Workspace

/-- A computation that changes a workspace.  It keeps its changes also when it fails. -/
abbrev Action := Changing Workspace

namespace Action

open Workspace (required)

/-- The item of a name. -/
def named (name : String) : Action Item := do
  match (← get).find? name with
  | some item => return item
  | none => throw .missingKey

/-- Gives a name to an item. -/
def bind (name : String) (item : Item) : Action Unit := modify fun w => w.bind name item

/-- An item as an argument. -/
def datum (item : Item) : Action Datum := return (← get).datum item

/-- Puts a new part of a label into the workspace. -/
def addPart (p : Part) : Action PartId := do
  let w ← get
  set { w with parts := w.parts ++ [p] }
  return w.parts.length

mutual

/-- Puts a part of a label with all parts in it into the workspace. -/
def adopt : LabelNode → Action PartId
  | .chars s => addPart (.chars s)
  | .text items => do addPart (.text (← adoptAll items))
  | .tag t attributes content => do addPart (.tag t attributes (← adoptAll content))
  | .foreign written => addPart (.foreign (.datum (.other "object" none true written)))

/-- Puts parts into the workspace in order. -/
def adoptAll : List LabelNode → Action (List PartId)
  | [] => return []
  | n :: ns => return (← adopt n) :: (← adoptAll ns)

end

/-- Puts a new value into the workspace, so that it can grow if it is a list. -/
def addValue (v : Value) : Action Item := do
  if v.isList then
    let w ← get
    set { w with lists := w.lists ++ [v] }
    return .list w.lists.length
  else return .datum (.value v)

/-- Puts a new label into the workspace. -/
def addLabel (content : PartId) : Action Item := do
  let w ← get
  set { w with labels := w.labels ++ [content] }
  return .label w.labels.length

/-- The part of a label with all parts in it. -/
def node (p : PartId) : Action LabelNode := do liftExcept (required ((← get).node? p))

end Action

end DotWriter
