import DotWriter.Attribute.Legal
import DotWriter.Attribute.Table

/-!
# Kinds of graphs

`GraphKind` lists the ten kinds of graphs.  Directed or not, strict or not, cluster or not, and
nested or not are read off the kind, and with them the attributes that a graph may carry.
-/

namespace DotWriter

/-- The kinds of graphs. -/
inductive GraphKind
  | graph | digraph | strictGraph | strictDigraph
  | subgraph
  | clusterGraph | clusterDigraph | strictClusterGraph | strictClusterDigraph
  | clusterSubgraph
deriving DecidableEq

namespace GraphKind

/-- All kinds. -/
def all : List GraphKind := [
  .graph, .digraph, .strictGraph, .strictDigraph, .subgraph, .clusterGraph, .clusterDigraph,
  .strictClusterGraph, .strictClusterDigraph, .clusterSubgraph]

/-- The name of a kind in descriptions. -/
def name : GraphKind → String
  | graph => "graph"
  | digraph => "digraph"
  | strictGraph => "strict_graph"
  | strictDigraph => "strict_digraph"
  | subgraph => "subgraph"
  | clusterGraph => "cluster_graph"
  | clusterDigraph => "cluster_digraph"
  | strictClusterGraph => "strict_cluster_graph"
  | strictClusterDigraph => "strict_cluster_digraph"
  | clusterSubgraph => "cluster_subgraph"

/-- The kind of the given name. -/
def ofName? (name : String) : Option GraphKind := all.find? fun k => k.name == name

/-- Whether parallel edges are one edge. -/
def isStrict : GraphKind → Bool
  | strictGraph | strictDigraph | strictClusterGraph | strictClusterDigraph => true
  | _ => false

/-- Whether edges have a direction. -/
def isDirected : GraphKind → Bool
  | digraph | strictDigraph | clusterDigraph | strictClusterDigraph => true
  | _ => false

/-- Whether the graph is drawn as a cluster. -/
def isCluster : GraphKind → Bool
  | clusterGraph | clusterDigraph | strictClusterGraph | strictClusterDigraph
  | clusterSubgraph => true
  | _ => false

/-- Whether the graph may be nested in another one. -/
def isSubgraph : GraphKind → Bool
  | subgraph | clusterSubgraph => true
  | _ => false

/-- The name of a kind tells which flags it has. -/
theorem flags_iff_name (k : GraphKind) :
    (k.isStrict = true ↔ "strict_".toList <+: k.name.toList) ∧
    (k.isDirected = true ↔ "digraph".toList <:+ k.name.toList) ∧
    (k.isCluster = true ↔ "cluster_".toList <:+: k.name.toList) ∧
    (k.isSubgraph = true ↔ "subgraph".toList <:+ k.name.toList) := by
  cases k <;> decide +kernel

/-- The keyword that opens a graph in a document. -/
def keyword (k : GraphKind) : String :=
  if k.isSubgraph then "subgraph" else if k.isDirected then "digraph" else "graph"

/-- The attributes that a graph may carry. -/
def legal (k : GraphKind) : List AttributeId :=
  let own := if k.isSubgraph then subgraphAttributes else graphAttributes
  union (if k.isCluster then [own.map .dot, clusterAttributes.map .dot] else [own.map .dot])

end GraphKind

end DotWriter
