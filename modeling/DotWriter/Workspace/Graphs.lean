import DotWriter.Workspace.Expression

/-!
# Graphs in a workspace

Graphs, their nodes and edges, and registries of names as items.

* `Action.makeGraph`, `Action.createGraph` and `Action.createSubgraph` make graphs, `Action.nest`
  nests them, and `Action.loadGraph` builds the graph of a description;
* `Action.addNode` and `Action.addEdge` add to a graph;
* `Action.registered?` and `Action.isRegistered` look a name up.
-/

namespace DotWriter

namespace Action

/-- Calls an operation of the store. -/
def onStore {α : Type} (f : GraphStore → Except Fault α × GraphStore) : Action α :=
  .within (fun w => w.store) (fun w store => { w with store := store }) (.of f)

/-- The graph that an item is. -/
def graphOf : Item → Action GraphId
  | .graph g => return g
  | _ => throw .noSuchPart

/-- The registry that an item is. -/
def registryOf : Item → Action Nat
  | .registry r => return r
  | _ => throw .noSuchPart

/-- A graph of the workspace. -/
def storedGraph (g : GraphId) : Action StoredGraph := do
  liftExcept (Workspace.required (← get).store.graphs[g]?)

/-- A graph with all of its subgraphs. -/
def graphTree (g : GraphId) : Action Graph := do
  liftExcept (Workspace.required ((← get).store.tree? g))

/-- The registry without names. -/
def addRegistry : Action Item := do
  let w ← get
  let (r, store) := w.store.addRegistry
  set { w with store := store }
  return .registry r

/-- The kind of graphs, if there is one of the name that was looked up. -/
def knownKind : Option GraphKind → Action GraphKind
  | some kind => return kind
  | none => throw .unknownMember

/-- Makes a graph, with a registry or without. -/
def makeGraph (registryId? : Option Nat) (name : Expression) (kind? : Option GraphKind) :
    Action GraphId := do
  let d ← name.evalDatum
  let kind ← knownKind kind?
  let name ← liftExcept (Name.of d)
  onStore fun s => s.create registryId? name kind

/-- Makes a graph and registers its name. -/
def createGraph (registry : Item) (name : Expression) (kind? : Option GraphKind) :
    Action GraphId := do
  makeGraph (some (← registryOf registry)) name kind?

/-- Makes a graph with the registry of its parent and nests it. -/
def createSubgraph (parent : GraphId) (name : Expression) (cluster : Bool) : Action GraphId := do
  let name ← liftExcept (Name.of (← name.evalDatum))
  onStore fun s => s.createSubgraph parent name cluster

/-- Nests a graph in another one. -/
def nest (parent child : GraphId) : Action Unit := onStore fun s => s.nest parent child

/-- Makes a node of no graph. -/
def makeNode (name : Expression) : Action Item := do
  let node := Node.ofName (← liftExcept (Name.of (← name.evalDatum)))
  let w ← get
  set { w with looseNodes := w.looseNodes ++ [node] }
  return .looseNode w.looseNodes.length

/-- Declares a node in a graph. -/
def addNode (g : GraphId) (name : Expression) : Action Item := do
  let name ← liftExcept (Name.of (← name.evalDatum))
  onStore fun s => s.addNode g name
  return .node g name.render

/-- The node of a graph with the given name. -/
def findNode (g : GraphId) (name : Expression) : Action (Option Node) := do
  let name ← liftExcept (Name.of (← name.evalDatum))
  return (← get).graphNode? g name.render

/-- The end of a new edge that an item gives. -/
def edgeEnd (item : Item) : Action EdgeEnd := do
  match item with
  | .node g key => return .node (← liftExcept (Workspace.required ((← get).graphNode? g key))).name
  | .looseNode n => return .node (← liftExcept (Workspace.required (← get).looseNodes[n]?)).name
  | item => return .named (← datum item)

/-- Adds an edge to a graph. -/
def addEdge (g : GraphId) (tail head : Expression) : Action Item := do
  let tail ← tail.eval
  let head ← head.eval
  let tail ← edgeEnd tail
  let head ← edgeEnd head
  onStore fun s => s.addEdge g tail head
  return .edge g ((← storedGraph g).block.edges.length - 1)

/-- The graph that is registered under a name. -/
def registered? (registry : Item) (name : Expression) : Action (Option GraphId) := do
  let r ← registryOf registry
  let name ← liftExcept (Name.of (← name.evalDatum))
  return (← get).store.registries[r]?.bind fun r => r.find? name.render

/-- Whether a graph is registered under a name.  What is no name never is one. -/
def isRegistered (registry : Item) (name : Expression) : Action Bool := do
  let r ← registryOf registry
  match Name.of (← name.evalDatum) with
  | .ok name => return ((← get).store.keysOf r).contains name.render
  | .error _ => return false

/-- Number of registered names. -/
def registeredCount (registry : Item) : Action Nat := do
  return ((← get).store.keysOf (← registryOf registry)).length

/-- Builds the graph of a description, with a registry or without. -/
def loadGraph (registryId? : Option Item) (description : Expression) : Action GraphId := do
  let r? ← match registryId? with
    | some item => some <$> registryOf item
    | none => pure none
  let raw ← liftExcept (Description.ofDatum (← description.evalDatum))
  onStore fun s => s.load r? raw

end Action

end DotWriter
