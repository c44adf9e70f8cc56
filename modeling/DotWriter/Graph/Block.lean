import DotWriter.Attribute.Check
import DotWriter.Graph.Kind
import DotWriter.Graph.Name

/-!
# What one graph declares

A `Block` is a graph without its subgraphs: its name and kind, three attribute tables, its nodes in
the order in which they were declared, and its edges.

* `Block.addNode` declares a node, unless its name is taken;
* `Block.addEdge` adds an edge and declares the ends that are missing, tail first;
* `TableSite` says where a block keeps a table, and `Block.addAttribute` writes into it;
* `Block.displayName` is the name as the document shows it, with the prefix of clusters.

A call answers with its result and with the block that it leaves, also when it is refused.
-/

namespace DotWriter

/-- A node. -/
structure Node where
  name : Name
  attributes : Table

namespace Node

/-- A node without attributes. -/
def ofName (name : Name) : Node := ⟨name, Table.ofDot nodeAttributes⟩

/-- The name of the node as it is written. -/
def key (n : Node) : String := n.name.render

/-- The statement of the node. -/
def render (n : Node) : String := statement n.key n.attributes

end Node

/-- An edge between two nodes, which it knows by their written names. -/
structure Edge where
  tail : String
  head : String
  attributes : Table

namespace Edge

/-- An edge without attributes. -/
def between (tail head : String) : Edge := ⟨tail, head, Table.ofDot edgeAttributes⟩

/-- The statement of the edge. -/
def render (e : Edge) (directed : Bool) : String :=
  statement (e.tail ++ (if directed then " -> " else " -- ") ++ e.head) e.attributes

end Edge

/-- An end of a new edge: what is given as a name, or a node that exists, which need not be one of
the graph. -/
inductive EdgeEnd
  | named (name : Datum)
  | node (name : Name)

/-- A graph without its subgraphs. -/
structure Block where
  name : Name
  kind : GraphKind
  attributes : Table
  nodeDefaults : Table
  edgeDefaults : Table
  /-- The nodes in the order in which they were declared. -/
  nodes : List Node
  edges : List Edge

/-- The tables of a block for itself and for defaults. -/
inductive TableRole
  | attributes | nodeDefaults | edgeDefaults
deriving DecidableEq

namespace TableRole

/-- The table of a block. -/
def get (b : Block) : TableRole → Table
  | attributes => b.attributes
  | nodeDefaults => b.nodeDefaults
  | edgeDefaults => b.edgeDefaults

/-- Replaces the table of a block. -/
def set (b : Block) (t : Table) : TableRole → Block
  | attributes => { b with attributes := t }
  | nodeDefaults => { b with nodeDefaults := t }
  | edgeDefaults => { b with edgeDefaults := t }

end TableRole

/-- Where a block keeps a table: for itself, for a node or for an edge. -/
inductive TableSite
  | own (role : TableRole)
  | node (key : String)
  | edge (index : Nat)

namespace Block

/-- A graph that declares nothing. -/
def empty (name : Name) (kind : GraphKind) : Block :=
  ⟨name, kind, Table.ofLegal kind.legal, Table.ofDot nodeAttributes, Table.ofDot edgeAttributes,
    [], []⟩

/-- The name with the prefix of clusters, unless it begins with the word already.  An identifier
stays one; every other name becomes a string. -/
def displayName (b : Block) : String :=
  if !b.kind.isCluster then b.name.render
  else if "cluster".toList.isPrefixOf b.name.raw.toList then b.name.render
  else match b.name with
    | .id x => "cluster_" ++ x.name
    | name => quoted ("cluster_" ++ name.raw)

/-- The written names of the nodes. -/
def keys (b : Block) : List String := b.nodes.map Node.key

/-- The node with the given written name. -/
def find? (b : Block) (key : String) : Option Node := b.nodes.find? fun n => n.key == key

/-- Declares a node. -/
def addNode (b : Block) (name : Name) : Except Fault Unit × Block :=
  if b.keys.contains name.render then (.error (.duplicateNode name.render b.name.render), b)
  else (.ok (), { b with nodes := b.nodes ++ [Node.ofName name] })

/-- Declares a node if its name is not taken. -/
def ensureNode (b : Block) (name : Name) : Block :=
  if b.keys.contains name.render then b else { b with nodes := b.nodes ++ [Node.ofName name] }

/-- Adds an edge between the nodes of two names, and declares the ones that are missing, tail
first. -/
def link (b : Block) (tail head : Name) : Block :=
  let b := (b.ensureNode tail).ensureNode head
  { b with edges := b.edges ++ [Edge.between tail.render head.render] }

/-- Finds one end of an edge, and declares it if it is a name that is not taken. -/
def reachEnd (b : Block) : EdgeEnd → Except Fault (String × Block)
  | .node name => .ok (name.render, b)
  | .named d => do
    let name ← Name.of d
    return (name.render, b.ensureNode name)

/-- Adds an edge.  A head that is no name is found out after the tail was declared, so the graph is
part of the answer in any case. -/
def addEdge (b : Block) (tail head : EdgeEnd) : Except Fault Unit × Block :=
  match b.reachEnd tail with
  | .error f => (.error f, b)
  | .ok (tailKey, b) =>
    match b.reachEnd head with
    | .error f => (.error f, b)
    | .ok (headKey, b) => (.ok (), { b with edges := b.edges ++ [Edge.between tailKey headKey] })

/-- Changes the node with the given written name. -/
def modifyNode (b : Block) (key : String) (f : Node → Node) : Block :=
  { b with nodes := b.nodes.map fun n => if n.key == key then f n else n }

/-! ### Tables -/

/-- The table at a site. -/
def table? (b : Block) : TableSite → Option Table
  | .own role => some (role.get b)
  | .node key => (b.find? key).map Node.attributes
  | .edge i => b.edges[i]?.map Edge.attributes

/-- Replaces the table at a site. -/
def setTable (b : Block) (t : Table) : TableSite → Block
  | .own role => role.set b t
  | .node key => b.modifyNode key fun n => { n with attributes := t }
  | .edge i => { b with edges := b.edges.modify i fun e => { e with attributes := t } }

/-- Writes an attribute into the table at a site. -/
def addAttribute (b : Block) (site : TableSite) (attr : AttributeId) (d : Datum) :
    Except Fault Unit × Block :=
  match b.table? site with
  | none => (.error .noSuchPart, b)
  | some t =>
    let (result, t) := t.add attr d
    (result, b.setTable t site)

/-! ### Statements -/

/-- The statements of a block for one of its tables. -/
def tableStatements (head : String) (t : Table) : List String :=
  if t.size = 0 then [] else [statement head t]

/-- The statements of a block, without those of subgraphs. -/
def statements (b : Block) (directed : Bool) : List String :=
  tableStatements "graph" b.attributes ++ tableStatements "node" b.nodeDefaults ++
    tableStatements "edge" b.edgeDefaults ++ b.nodes.map Node.render ++
    b.edges.map fun e => e.render directed

/-- The line that opens a block. -/
def heading (b : Block) : String :=
  (if b.kind.isStrict then "strict " else "") ++ b.kind.keyword ++ " " ++ b.displayName ++
    " \x7b"

end Block

end DotWriter
