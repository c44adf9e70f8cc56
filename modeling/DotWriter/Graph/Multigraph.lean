import DotWriter.Graph.Basic

/-!
# Multigraphs

A `Multigraph` has nodes with attributes, and edges with attributes of which several may join the
same nodes.

* `Multigraph.addNode` and `Multigraph.addEdge` insert; a node that is there already takes over new
  attributes, and an edge brings its missing ends with it;
* `Graph.toMultigraph` walks a graph: its nodes, its edges, then its subgraphs;
* `Multigraph.listedEdges` lists the edges node by node.
-/

namespace DotWriter

/-- Attributes by name, in order. -/
abbrev Attributes := List (String × String)

namespace Attributes

/-- Sets one attribute: a known name keeps its position. -/
def set (attrs : Attributes) (name text : String) : Attributes :=
  if attrs.any fun a => a.1 == name then
    attrs.map fun a => if a.1 == name then (name, text) else a
  else attrs ++ [(name, text)]

/-- Sets several attributes in order. -/
def update (attrs news : Attributes) : Attributes :=
  news.foldl (fun attrs a => Attributes.set attrs a.1 a.2) attrs

end Attributes

/-- The attributes of a table under their names in a document. -/
def Table.named (t : Table) : Attributes := t.entries.map fun e => (e.1.name, e.2)

/-- An edge of a multigraph; the key tells parallel edges apart. -/
structure MultiEdge where
  tail : String
  head : String
  key : Nat
  attributes : Attributes
deriving DecidableEq

/-- A graph in which several edges may join the same nodes. -/
structure Multigraph where
  directed : Bool
  attributes : Attributes
  /-- The nodes in the order in which they came in. -/
  nodes : List (String × Attributes)
  /-- The edges in the order in which they came in. -/
  edges : List MultiEdge

namespace Multigraph

/-- Inserts a node, or merges attributes into the one that is there. -/
def addNode (g : Multigraph) (key : String) (attrs : Attributes) : Multigraph :=
  if g.nodes.any fun n => n.1 == key then
    { g with nodes := g.nodes.map fun n => if n.1 == key then (key, n.2.update attrs) else n }
  else { g with nodes := g.nodes ++ [(key, attrs)] }

/-- Whether the edge joins the two nodes. -/
def joins (g : Multigraph) (tail head : String) (e : MultiEdge) : Bool :=
  (e.tail == tail && e.head == head) ||
    (!g.directed && e.tail == head && e.head == tail)

/-- Inserts an edge after its ends.  Its key is the number of edges that join the ends already. -/
def addEdge (g : Multigraph) (tail head : String) (attrs : Attributes) : Multigraph :=
  let g := (g.addNode tail []).addNode head []
  { g with edges := g.edges ++ [⟨tail, head, g.edges.countP (g.joins tail head), attrs⟩] }

/-- Inserts what a block declares. -/
def addBlock (g : Multigraph) (b : Block) : Multigraph :=
  let g := b.nodes.foldl (fun g n => g.addNode n.key n.attributes.named) g
  b.edges.foldl (fun g e => g.addEdge e.tail e.head e.attributes.named) g

/-- The node that an edge leads to from `node`, if it does. -/
def neighbour? (g : Multigraph) (node : String) (e : MultiEdge) : Option String :=
  if e.tail == node then some e.head
  else if !g.directed && e.head == node then some e.tail
  else none

/-- The neighbours of a node, in the order in which they became adjacent. -/
def neighbours (g : Multigraph) (node : String) : List String :=
  (g.edges.filterMap (g.neighbour? node)).eraseDups

/-- The edges in the list of one node.  In an undirected graph, a neighbour that has been listed
before has shown its edges already. -/
def edgesAt (g : Multigraph) (listed : List String) (node : String) : List MultiEdge :=
  ((g.neighbours node).filter fun n => g.directed || !listed.contains n).flatMap fun n =>
    (g.edges.filter (g.joins node n)).map fun e => { e with tail := node, head := n }

/-- The edges of the given nodes, after those of the nodes listed before. -/
def edgesFrom (g : Multigraph) (listed : List String) : List String → List MultiEdge
  | [] => []
  | n :: ns => g.edgesAt listed n ++ g.edgesFrom (n :: listed) ns

/-- The edges, node by node, for each node by its neighbours, and parallel edges by their keys. -/
def listedEdges (g : Multigraph) : List MultiEdge := g.edgesFrom [] (g.nodes.map (·.1))

end Multigraph

namespace Graph

mutual

/-- Inserts a graph and its subgraphs. -/
def fill (m : Multigraph) : Graph → Multigraph
  | mk b gs => fillAll (m.addBlock b) gs

/-- Inserts graphs in order. -/
def fillAll (m : Multigraph) : List Graph → Multigraph
  | [] => m
  | g :: gs => fillAll (fill m g) gs

end

/-- The multigraph of a graph and all of its subgraphs.  The attributes are those of the outermost
graph. -/
def toMultigraph (g : Graph) : Multigraph :=
  fill ⟨g.block.kind.isDirected, g.block.attributes.named, [], []⟩ g

end Graph

end DotWriter
