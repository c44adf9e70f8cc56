import DotWriter.Attribute.Reading
import DotWriter.Graph.Basic
import DotWriter.Yaml.Reader

/-!
# Descriptions of graphs

A description is a mapping with the name of a graph and, as far as they are wanted, its kind, its
attributes and defaults, its nodes, its edges and its subgraphs.  It is given as data, or as a YAML
text that holds the data.

* `Block.fill` takes over everything but the subgraphs;
* `describe` builds the graph of a description.

A description may be at fault somewhere.  What was built until then is part of the answer: the graphs
that were opened, in order, and the tree of these graphs with everything that was declared in them.
-/

namespace DotWriter

namespace Description

/-- The entries of a mapping; nothing at all counts as an empty one. -/
def mapping (r : Raw) (what : String) : Except Fault (List (Raw × Raw)) :=
  match r with
  | .null => .ok []
  | .map entries => .ok entries
  | _ => .error (.notMapping what)

/-- The value of an entry, or nothing at all. -/
def field (entries : List (Raw × Raw)) (key : String) : Raw := (Raw.get? entries key).getD .null

/-- The attribute that a key names. -/
def attributeOf (key : Raw) : Except Fault AttributeId :=
  let found := match key with
    | .text s => DotAttribute.ofName? s
    | _ => none
  match found with
  | some a => .ok (.dot a)
  | none => .error (.unknownAttribute key.literal)

/-- The name that a text gives: an identifier if it is one, and else a string. -/
def wordName (s : String) : Name :=
  match Id.of s with
  | .ok x => .id x
  | .error _ => .string s

/-- The name that a raw datum stands for: a number, or what its text gives. -/
def nameOf (r : Raw) : Except Fault Name :=
  match r with
  | .null | .bool _ => .error (.invalidName r.literal)
  | .int n => .int <$> Integer.of n
  | .float x => .double <$> Double.of "Double" x
  | r => .ok (wordName r.plain)

/-- The items of a list; what counts as false is an empty list. -/
def listOf (r : Raw) (notList : Fault) : Except Fault (List Raw) :=
  if r.isTruthy then
    match r with
    | .list items => .ok items
    | _ => .error notList
  else .ok []

/-- The kind of a subgraph: a cluster if its description says so. -/
def subgraphKind (entries : List (Raw × Raw)) : GraphKind :=
  if (field entries "cluster").isTruthy then .clusterSubgraph else .subgraph

/-- The kind that a description names, a directed graph by default. -/
def kindOf (entries : List (Raw × Raw)) : Except Fault GraphKind :=
  match Raw.get? entries "kind" with
  | none => .ok .digraph
  | some r =>
    let found := match r with
      | .text s => GraphKind.ofName? s
      | _ => none
    match found with
    | some k => .ok k
    | none => .error (.unknownGraphKind r.literal)

/-- The names of both ends of an edge. -/
def endsOf (entries : List (Raw × Raw)) : Except Fault (Name × Name) :=
  match Raw.get? entries "tail", Raw.get? entries "head" with
  | some tail, some head => do return (← nameOf tail, ← nameOf head)
  | _, _ => .error (.edgeWithoutEnds (Raw.map entries).literal)

theorem sizeOf_item_lt (item : Raw) (items : List Raw) :
    sizeOf item + 1 < sizeOf (item :: items) := by
  have hpos : 0 < sizeOf items := by
    cases items with
    | nil => exact Nat.one_pos
    | cons item items =>
      rw [List.cons.sizeOf_spec]
      omega
  rw [List.cons.sizeOf_spec]
  omega

theorem sizeOf_get? {entries : List (Raw × Raw)} {key : String} {r : Raw}
    (h : Raw.get? entries key = some r) : sizeOf r < sizeOf entries := by
  simp only [Raw.get?, Option.map_eq_some_iff] at h
  obtain ⟨e, he, rfl⟩ := h
  have := List.sizeOf_lt_of_mem (List.mem_of_find?_eq_some he)
  obtain ⟨k, v⟩ := e
  simp at this ⊢
  omega

/-- The items of a list. -/
def listed : Raw → List Raw
  | .list items => items
  | _ => []

theorem listOf_eq_ok {r : Raw} {notList : Fault} {items : List Raw}
    (h : listOf r notList = .ok items) : items = listed r := by
  unfold listOf at h
  split at h
  · split at h <;> cases h
    rfl
  · rename_i hfalse
    cases h
    cases r with
    | list items =>
      have : items = [] := by simpa [Raw.isTruthy] using hfalse
      rw [this, listed]
    | _ => rfl

/-- What is listed in an entry is a part of the entries. -/
theorem sizeOf_listed_field (entries : List (Raw × Raw)) (key : String) :
    sizeOf (listed (field entries key)) ≤ sizeOf entries := by
  have hempty : sizeOf ([] : List Raw) ≤ sizeOf entries := by
    cases entries with
    | nil => exact Nat.le_refl _
    | cons e entries => simp; omega
  unfold field
  cases h : Raw.get? entries key with
  | none => exact hempty
  | some r =>
    cases r with
    | list items =>
      have hlist := sizeOf_get? h
      rw [Raw.list.sizeOf_spec] at hlist
      rw [Option.getD_some, listed]
      omega
    | _ => exact hempty

end Description

open Description

/-- Writes an entry of a mapping.  A value is read before the table is asked whether it supports the
attribute. -/
def Table.fillEntry (entry : Raw × Raw) : Changing Table Unit := do
  let attr ← liftExcept (attributeOf entry.1)
  let v ← liftExcept (coerce attr entry.2)
  .of fun t => t.add attr (.value v)

/-- Writes the attributes of a mapping in order. -/
def Table.fill (r : Raw) (what : String) : Changing Table Unit := do
  (← liftExcept (mapping r what)).forM fillEntry

namespace Block

/-- Changes the table at a site. -/
def onTable (site : TableSite) (x : Changing Table Unit) : Changing Block Unit :=
  .of fun b =>
    match b.table? site with
    | none => (.error .noSuchPart, b)
    | some t =>
      let (result, t) := x.runOn t
      (result, b.setTable t site)

/-- Declares one node with its attributes. -/
def describeNode (entry : Raw × Raw) : Changing Block Unit := do
  let name ← liftExcept (nameOf entry.1)
  .of fun b => b.addNode name
  onTable (.node name.render) (Table.fill entry.2 ("node " ++ entry.1.plain))

/-- Adds one edge with its attributes. -/
def describeEdge (entry : Raw) : Changing Block Unit := do
  let entries ← liftExcept (mapping entry "edge")
  let (tail, head) ← liftExcept (endsOf entries)
  let i ← .of fun b => (.ok b.edges.length, b.link tail head)
  onTable (.edge i) (Table.fill (field entries "attributes") "edge attributes")

/-- Takes over what a description says about the graph itself. -/
def fill (entries : List (Raw × Raw)) : Changing Block Unit := do
  onTable (.own .attributes) (Table.fill (field entries "attributes") "attributes")
  onTable (.own .nodeDefaults) (Table.fill (field entries "node_defaults") "node_defaults")
  onTable (.own .edgeDefaults) (Table.fill (field entries "edge_defaults") "edge_defaults")
  (← liftExcept (mapping (field entries "nodes") "nodes")).forM describeNode
  (← liftExcept (listOf (field entries "edges") .edgesNotList)).forM describeEdge

end Block

/-- A graph that was opened: its name and kind. -/
abbrev Opened := Name × GraphKind

/-- A description at work: the graphs that it has opened, in order, and what it is building. -/
structure Draft (τ : Type) where
  opened : List Opened
  built : τ

/-- A computation that opens graphs and builds something of them. -/
abbrev Drafting (τ : Type) := Changing (Draft τ)

/-- Whether a name is one of the names `taken?`, if there are any to respect, or was given to a graph
that was opened before. -/
def isTaken (taken? : Option (List String)) (opened : List Opened) (name : Name) : Bool :=
  taken?.any fun taken =>
    taken.contains name.render || (opened.map fun o => o.1.render).contains name.render

namespace Drafting

/-- Changes what the graph itself declares. -/
def onBlock (x : Changing Block Unit) : Drafting Graph Unit :=
  .within (fun d => d.built.block) (fun d b => { d with built := .mk b d.built.subgraphs }) x

/-- Changes the list of the graphs that are nested in the graph. -/
def onSubgraphs (x : Drafting (List Graph) Unit) : Drafting Graph Unit :=
  .within (fun d => ⟨d.opened, d.built.subgraphs⟩)
    (fun d nested => ⟨nested.opened, .mk d.built.block nested.built⟩) x

/-- Opens a graph, unless its name is taken, and works on it.  The graph is put at the end of the
list as it is left, whether this succeeds or not. -/
def openGraph (taken? : Option (List String)) (name : Name) (kind : GraphKind)
    (x : Drafting Graph Unit) : Drafting (List Graph) Graph :=
  .of fun d =>
    if isTaken taken? d.opened name then (.error (.duplicateGraph name.render), d)
    else
      let (result, left) := x.runOn ⟨d.opened ++ [(name, kind)], Graph.empty name kind⟩
      (result.map fun _ => left.built, ⟨left.opened, d.built ++ [left.built]⟩)

end Drafting

open Drafting

mutual

/-- Fills an open graph and builds its subgraphs. -/
def populate (taken? : Option (List String)) (entries : List (Raw × Raw)) :
    Drafting Graph Unit := do
  onBlock (Block.fill entries)
  match h : listOf (field entries "subgraphs") .subgraphsNotList with
  | .error f => throw f
  | .ok items =>
    have : sizeOf items < sizeOf entries + 1 := by
      rw [listOf_eq_ok h]
      exact Nat.lt_succ_of_le (sizeOf_listed_field entries "subgraphs")
    onSubgraphs (describeAll taken? items)
termination_by sizeOf entries + 1

/-- Builds the subgraphs of a list. -/
def describeAll (taken? : Option (List String)) : List Raw → Drafting (List Graph) Unit
  | [] => return
  | item :: items => do
    have := sizeOf_item_lt item items
    let _ ← describeSubgraph taken? item
    describeAll taken? items
termination_by items => sizeOf items

/-- Builds one subgraph. -/
def describeSubgraph (taken? : Option (List String)) (item : Raw) :
    Drafting (List Graph) Graph := do
  match item with
  | .map entries => do
    match Raw.get? entries "name" with
    | none => throw .subgraphWithoutName
    | some r => do
      let name ← liftExcept (nameOf r)
      openGraph taken? name (subgraphKind entries) (populate taken? entries)
  | .null => throw .subgraphWithoutName
  | _ => throw (.notMapping "subgraph")
termination_by sizeOf item + 1
decreasing_by simp

end

/-- Builds the graph of a description. -/
def describeGraph (taken? : Option (List String)) (r : Raw) : Drafting (List Graph) Graph := do
  match r with
  | .map entries => do
    match Raw.get? entries "name" with
    | none => throw .descriptionWithoutName
    | some rawName => do
      let kind ← liftExcept (kindOf entries)
      let name ← liftExcept (nameOf rawName)
      openGraph taken? name kind (populate taken? entries)
  | _ => throw .descriptionNotMapping

/-- Builds the graph of a description.  The names `taken?`, if there are any to respect, must not be
used again.  What is left is the graph as far as it was built, if it was opened at all. -/
def describe (taken? : Option (List String)) (r : Raw) : Except Fault Graph × Draft (List Graph) :=
  (describeGraph taken? r).runOn ⟨[], []⟩

/-- The graph of a description. -/
def Graph.ofDescription (r : Raw) : Except Fault Graph := (describe none r).1

/-- The data of a description that is given as an argument. -/
def Description.ofDatum : Datum → Except Fault Raw
  | .raw (.text s) => readYaml s
  | .raw r => .ok r
  | _ => .error .descriptionNotMapping

/-- The graph of a description that is given as a YAML text. -/
def Graph.ofText (s : String) : Except Fault Graph := do Graph.ofDescription (← readYaml s)

end DotWriter
