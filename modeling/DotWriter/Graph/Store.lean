import DotWriter.Description

/-!
# Graphs that share subgraphs

A `GraphStore` holds graphs by number.  A graph names its subgraphs by their numbers, so that one
graph can be nested in several others, and a change of it shows in all of them.  A `Registry`
keeps the names of graphs apart: `GraphStore.create` refuses a name that is taken.

* `GraphStore.nest` and `GraphStore.createSubgraph` nest graphs;
* `GraphStore.addNode`, `GraphStore.addEdge` and `GraphStore.addAttribute` add to a graph;
* `GraphStore.load` builds the graph of a description; the graphs that it opened stay in the store
  and registered also when it fails, with everything that was built in them until then;
* `GraphStore.tree?` is a graph of the store with all of its subgraphs.
-/

namespace DotWriter

/-- The number of a graph in a store. -/
abbrev GraphId := Nat

/-- A graph of a store. -/
structure StoredGraph where
  block : Block
  /-- The registry of the graph, if it has one. -/
  registryId? : Option Nat
  subgraphs : List GraphId

/-- The names of graphs, oldest first, each with the graph that has it. -/
structure Registry where
  entries : List (String × GraphId)

namespace Registry

/-- The registry without names. -/
def empty : Registry := ⟨[]⟩

/-- The names in the order in which they were registered. -/
def keys (r : Registry) : List String := r.entries.map (·.1)

/-- The graph of a name. -/
def find? (r : Registry) (key : String) : Option GraphId :=
  (r.entries.find? fun e => e.1 == key).map (·.2)

/-- Registers names. -/
def register (r : Registry) (entries : List (String × GraphId)) : Registry :=
  ⟨r.entries ++ entries⟩

end Registry

/-- Graphs and registries by number. -/
structure GraphStore where
  graphs : List StoredGraph
  registries : List Registry

namespace GraphStore

/-- The store without graphs. -/
def empty : GraphStore := ⟨[], []⟩

/-- Makes a new registry. -/
def addRegistry (s : GraphStore) : Nat × GraphStore :=
  (s.registries.length, { s with registries := s.registries ++ [Registry.empty] })

/-- Puts a graph without subgraphs into the store. -/
def insert (s : GraphStore) (block : Block) (registryId? : Option Nat) : GraphId × GraphStore :=
  (s.graphs.length, { s with graphs := s.graphs ++ [⟨block, registryId?, []⟩] })

/-- Changes a graph. -/
def modify (s : GraphStore) (g : GraphId) (f : StoredGraph → StoredGraph) : GraphStore :=
  { s with graphs := s.graphs.modify g f }

/-- Registers names in a registry. -/
def register (s : GraphStore) (r : Nat) (entries : List (String × GraphId)) : GraphStore :=
  { s with registries := s.registries.modify r fun r => r.register entries }

/-- The names of a registry. -/
def keysOf (s : GraphStore) (r : Nat) : List String := (s.registries[r]?.map Registry.keys).getD []

/-- Makes a graph, with a registry or without.  A registry refuses a name that is taken. -/
def create (s : GraphStore) (registryId? : Option Nat) (name : Name) (kind : GraphKind) :
    Except Fault GraphId × GraphStore :=
  match registryId? with
  | none =>
    let (g, s) := s.insert (Block.empty name kind) none
    (.ok g, s)
  | some r =>
    if (s.keysOf r).contains name.render then (.error (.duplicateGraph name.render), s)
    else
      let (g, s) := s.insert (Block.empty name kind) (some r)
      (.ok g, s.register r [(name.render, g)])

/-- Nests a graph in another one. -/
def nest (s : GraphStore) (parent child : GraphId) : Except Fault Unit × GraphStore :=
  match s.graphs[child]? with
  | none => (.error .noSuchPart, s)
  | some c =>
    if !c.block.kind.isSubgraph then (.error (.notNestable c.block.kind.name), s)
    else if parent = child then (.error .selfNesting, s)
    else (.ok (), s.modify parent fun g => { g with subgraphs := g.subgraphs ++ [child] })

/-- Makes a graph with the registry of its parent and nests it. -/
def createSubgraph (s : GraphStore) (parent : GraphId) (name : Name) (cluster : Bool) :
    Except Fault GraphId × GraphStore :=
  let kind : GraphKind := if cluster then .clusterSubgraph else .subgraph
  match s.graphs[parent]? with
  | none => (.error .noSuchPart, s)
  | some p =>
    match s.create p.registryId? name kind with
    | (.error f, s) => (.error f, s)
    | (.ok g, s) =>
      match s.nest parent g with
      | (.ok _, s) => (.ok g, s)
      | (.error f, s) => (.error f, s)

/-- Changes what a graph itself declares. -/
def modifyBlock (s : GraphStore) (g : GraphId) (f : Block → Block) : GraphStore :=
  s.modify g fun g => { g with block := f g.block }

/-- Calls an operation of what a graph itself declares. -/
def onBlock (s : GraphStore) (g : GraphId) (f : Block → Except Fault Unit × Block) :
    Except Fault Unit × GraphStore :=
  match s.graphs[g]? with
  | none => (.error .noSuchPart, s)
  | some p =>
    let (result, b) := f p.block
    (result, s.modifyBlock g fun _ => b)

/-- Declares a node in a graph. -/
def addNode (s : GraphStore) (g : GraphId) (name : Name) : Except Fault Unit × GraphStore :=
  s.onBlock g fun b => b.addNode name

/-- Adds an edge to a graph. -/
def addEdge (s : GraphStore) (g : GraphId) (tail head : EdgeEnd) :
    Except Fault Unit × GraphStore :=
  s.onBlock g fun b => b.addEdge tail head

/-- Writes an attribute into the table at a site of a graph. -/
def addAttribute (s : GraphStore) (g : GraphId) (site : TableSite) (attr : AttributeId)
    (d : Datum) : Except Fault Unit × GraphStore :=
  s.onBlock g fun b => b.addAttribute site attr d

mutual

/-- Puts a graph and its subgraphs into the store, each one before its own subgraphs. -/
def adopt (s : GraphStore) (registryId? : Option Nat) : Graph → GraphId × GraphStore
  | .mk b gs =>
    let (g, s) := s.insert b registryId?
    let (ids, s) := adoptAll s registryId? gs
    (g, s.modify g fun p => { p with subgraphs := ids })

/-- Puts graphs with their subgraphs into the store in order. -/
def adoptAll (s : GraphStore) (registryId? : Option Nat) : List Graph → List GraphId × GraphStore
  | [] => ([], s)
  | g :: gs =>
    let (id, s) := adopt s registryId? g
    let (ids, s) := adoptAll s registryId? gs
    (id :: ids, s)

end

/-- Registers the graphs that a description opened, the first of which has the given number. -/
def registerOpened (s : GraphStore) (registryId? : Option Nat) (first : GraphId)
    (opened : List Opened) : GraphStore :=
  match registryId? with
  | none => s
  | some r => s.register r (opened.zipIdx.map fun (o, i) => (o.1.render, first + i))

/-- Builds the graph of a description, which gets the next number.  What was built of it stays,
also when the description is at fault. -/
def load (s : GraphStore) (registryId? : Option Nat) (r : Raw) : Except Fault GraphId × GraphStore :=
  let first := s.graphs.length
  let (result, left) := describe (registryId?.map s.keysOf) r
  let (_, s) := s.adoptAll registryId? left.built
  (result.map fun _ => first, s.registerOpened registryId? first left.opened)

/-- A graph with its subgraphs, down to the given depth. -/
def treeTo (s : GraphStore) : Nat → GraphId → Option Graph
  | 0, _ => none
  | depth + 1, id => do
    let g ← s.graphs[id]?
    return .mk g.block (← g.subgraphs.mapM (treeTo s depth))

/-- A graph with its subgraphs.  No graph is nested more deeply than there are graphs. -/
def tree? (s : GraphStore) (id : GraphId) : Option Graph := s.treeTo s.graphs.length id

end GraphStore

end DotWriter
