import DotWriter.Proofs.Document.Tree
import DotWriter.Proofs.Graph.Listing
import DotWriter.Proofs.Graph.Run

/-!
# The multigraph of a graph

A graph is written as a document and exported as a multigraph, by two walks over the same tree.

* `Graph.blocks` : the blocks of a graph, each before those that are nested in it;
* `Graph.written` : the lines of a document with what they are about;
* `Graph.lines_eq` : these are the lines that are written;
* `Graph.Exports` : what a multigraph has to do with the graph that it was made from;
* `run_exports` : **the multigraph of a graph agrees with its document**, node by node and edge by
  edge.
-/

namespace DotWriter

/-! ### Walks -/

namespace Graph

mutual

/-- The blocks of a graph, each before those that are nested in it. -/
def blocks : Graph → List Block
  | mk b gs => b :: blocksAll gs

/-- The blocks of several graphs in order. -/
def blocksAll : List Graph → List Block
  | [] => []
  | g :: gs => blocks g ++ blocksAll gs

end

mutual

/-- A graph is inserted block by block. -/
theorem fill_eq (m : Multigraph) (g : Graph) : fill m g = g.blocks.foldl Multigraph.addBlock m := by
  cases g with
  | mk b gs => rw [fill, blocks, List.foldl_cons, fillAll_eq]

theorem fillAll_eq (m : Multigraph) (gs : List Graph) :
    fillAll m gs = (blocksAll gs).foldl Multigraph.addBlock m := by
  cases gs with
  | nil => rfl
  | cons g gs => rw [fillAll, blocksAll, List.foldl_append, fill_eq, fillAll_eq]

end

mutual

theorem Built.block_reachable {g : Graph} (hg : g.Built) : ∀ b ∈ g.blocks, b.Reachable := by
  cases hg with
  | mk hblock _ hbuilt =>
    rw [blocks]
    exact List.forall_mem_cons.2 ⟨hblock, Built.blockAll_reachable hbuilt⟩

theorem Built.blockAll_reachable {gs : List Graph} (hgs : ∀ g ∈ gs, g.Built) :
    ∀ b ∈ blocksAll gs, b.Reachable := by
  cases gs with
  | nil => exact fun b hb => absurd hb List.not_mem_nil
  | cons g gs =>
    obtain ⟨hg, hgs⟩ := List.forall_mem_cons.1 hgs
    rw [blocksAll]
    exact List.forall_mem_append.2 ⟨Built.block_reachable hg, Built.blockAll_reachable hgs⟩

end

end Graph

/-! ### Lines -/

/-- A line of a document. -/
inductive Line
  | opening (b : Block)
  | statement (subject : Subject) (t : Table)
  | closing

namespace Line

/-- The line as it is written. -/
def text : Line → String
  | opening b => b.heading
  | statement subject t => DotWriter.statement subject.text t
  | closing => "\x7d"

/-- The edge that the line is the statement of. -/
def edge? : Line → Option Edge
  | statement (.edge tail _ head) t => some ⟨tail, head, t⟩
  | _ => none

end Line

namespace Graph

mutual

/-- The lines of a graph with their levels of nesting. -/
def written (directed : Bool) (level : Nat) : Graph → List (Nat × Line)
  | mk b gs =>
    (level, .opening b) :: (b.subjects directed).map (fun p => (level + 1, .statement p.1 p.2)) ++
      writtenAll directed (level + 1) gs ++ [(level, .closing)]

/-- The lines of several graphs. -/
def writtenAll (directed : Bool) (level : Nat) : List Graph → List (Nat × Line)
  | [] => []
  | g :: gs => written directed level g ++ writtenAll directed level gs

end

/-- The edges that a document has statements for, in order. -/
def writtenEdges (directed : Bool) (g : Graph) : List Edge :=
  (g.written directed 0).filterMap fun l => l.2.edge?

mutual

/-- **The lines of a document**, each with its margin. -/
theorem lines_eq (indent : Nat) (directed : Bool) (level : Nat) (g : Graph) :
    g.lines indent directed level =
      (g.written directed level).map fun l => margin indent l.1 ++ l.2.text := by
  cases g with
  | mk b gs =>
    rw [lines, written, linesAll_eq, b.statements_eq]
    simp only [List.map_append, List.map_cons, List.map_map, List.map_nil, Line.text,
      Function.comp_def]

theorem linesAll_eq (indent : Nat) (directed : Bool) (level : Nat) (gs : List Graph) :
    linesAll indent directed level gs =
      (writtenAll directed level gs).map fun l => margin indent l.1 ++ l.2.text := by
  cases gs with
  | nil => rfl
  | cons g gs => rw [linesAll, writtenAll, List.map_append, lines_eq, linesAll_eq]

end

end Graph

namespace Block

/-- Only the edges of a block are written as edges. -/
theorem subjects_edges (b : Block) (directed : Bool) (level : Nat) :
    ((b.subjects directed).map fun p => (level, Line.statement p.1 p.2)).filterMap
      (fun l => l.2.edge?) = b.edges := by
  have hdefaults : ∀ role t, (defaultsOf role t).filterMap
      (fun p => (Line.statement p.1 p.2).edge?) = [] := by
    intro role t
    unfold defaultsOf
    split_ifs <;> rfl
  have hnodes : (b.nodes.map fun n => (Subject.node n.key, n.attributes)).filterMap
      (fun p => (Line.statement p.1 p.2).edge?) = [] := by
    simp [List.filterMap_map, Line.edge?]
  have hedges : (b.edges.map fun e => (Subject.edge e.tail directed e.head, e.attributes)).filterMap
      (fun p => (Line.statement p.1 p.2).edge?) = b.edges := by
    simp [List.filterMap_map, Line.edge?]
  rw [List.filterMap_map]
  change (b.subjects directed).filterMap (fun p => (Line.statement p.1 p.2).edge?) = b.edges
  simp only [subjects, List.filterMap_append, hdefaults, hnodes, hedges, List.nil_append]

end Block

namespace Graph

mutual

/-- The edges are written in the order of the blocks. -/
theorem written_edges (directed : Bool) (level : Nat) (g : Graph) :
    (g.written directed level).filterMap (fun l => l.2.edge?) = g.blocks.flatMap Block.edges := by
  cases g with
  | mk b gs =>
    rw [written, blocks, List.flatMap_cons, List.filterMap_append, List.filterMap_append,
      List.filterMap_cons_none (by rfl), b.subjects_edges, writtenAll_edges]
    simp [Line.edge?]

theorem writtenAll_edges (directed : Bool) (level : Nat) (gs : List Graph) :
    (writtenAll directed level gs).filterMap (fun l => l.2.edge?) =
      (blocksAll gs).flatMap Block.edges := by
  cases gs with
  | nil => rfl
  | cons g gs =>
    rw [writtenAll, blocksAll, List.filterMap_append, List.flatMap_append, written_edges,
      writtenAll_edges]

end

end Graph

/-! ### The multigraph -/

/-- The attributes are listed in the order of their names. -/
theorem DotAttribute.names_sorted :
    (all.map fun a => (asciiChars a.name).map Char.toNat).Pairwise (· < ·) :=
  List.isChain_iff_pairwise.1 (by decide +kernel)

theorem DotAttribute.name_injective : Function.Injective DotAttribute.name := by
  intro a b h
  have hnodup : (all.map fun a => (asciiChars a.name).map Char.toNat).Nodup := by
    refine names_sorted.imp ?_
    rintro cs _ hlt rfl
    exact List.lt_irrefl cs hlt
  exact List.inj_on_of_nodup_map hnodup a.mem_all b.mem_all (by rw [h])

/-- A table has no attribute twice. -/
theorem Table.IsDot.named_nodup {t : Table} (h : t.IsDot) : (t.named.map (·.1)).Nodup := by
  have hdot := fun e (he : e ∈ t.entries) => h.exists_dot he
  obtain ⟨legal, ws, rfl, -⟩ := h
  have hpair := lastWrites_pairwise (successes legal ws)
  rw [← run_entries] at hpair
  rw [named, List.map_map, List.Nodup, List.pairwise_map]
  refine hpair.imp_of_mem fun {e f} he hf hsup heq => hsup (.inl ?_)
  obtain ⟨a, ha⟩ := hdot e he
  obtain ⟨b, hb⟩ := hdot f hf
  simp only [Function.comp_apply, ha, hb] at heq
  rw [ha, hb, DotAttribute.name_injective heq]

namespace Graph

/-- What a multigraph has to do with the graph that it was made from. -/
structure Exports (g : Graph) (m : Multigraph) : Prop where
  directed : m.directed = g.block.kind.isDirected
  /-- The attributes are those of the outermost graph only. -/
  attributes : m.attributes = g.block.attributes.named
  /-- The nodes are the ones that the blocks mention, in the order of their first mention. -/
  nodes : m.nodes.map (·.1) = (g.blocks.flatMap Block.mentioned).eraseDups
  /-- The attributes of a node are merged from all of its declarations, in order. -/
  merges : ∀ n ∈ m.nodes, n.2.Merges (g.blocks.flatMap fun b => b.itemsOf n.1)
  /-- There is one edge for each edge of the document, with its attributes. -/
  edges : m.edges.map (fun e => (e.tail, e.head, e.attributes)) =
    (g.writtenEdges g.block.kind.isDirected).map fun e => (e.tail, e.head, e.attributes.named)
  /-- Parallel edges are numbered in the order of the document. -/
  keys : ∀ tail head, (m.edges.filter (m.joins tail head)).map MultiEdge.key =
    List.range (m.edges.countP (m.joins tail head))
  listed : m.Lists m.listedEdges
  /-- The document consists of the lines that the edges were taken from. -/
  lines : ∀ indent, g.lines indent g.block.kind.isDirected 0 =
    (g.written g.block.kind.isDirected 0).map fun l => margin indent l.1 ++ l.2.text

end Graph

namespace Multigraph

variable {m : Multigraph} {mentioned : List String} {items : String → Attributes}
  {edges : List (String × String × Attributes)}

theorem Holds.addBlocks (h : Holds m mentioned items edges) {bs : List Block}
    (hbs : ∀ b ∈ bs, b.Reachable) :
    Holds (bs.foldl Multigraph.addBlock m) (mentioned ++ bs.flatMap Block.mentioned)
      (fun k => items k ++ bs.flatMap fun b => b.itemsOf k)
      (edges ++ (bs.flatMap Block.edges).map fun e => (e.tail, e.head, e.attributes.named)) := by
  induction bs generalizing m mentioned items edges with
  | nil => simpa using h
  | cons b bs ih =>
    obtain ⟨hb, hbs⟩ := List.forall_mem_cons.1 hbs
    have hnamed : ∀ n ∈ b.nodes, (n.attributes.named.map (·.1)).Nodup := fun n hn =>
      (hb.tables_isDot _ (Block.mem_tables.2 (.inr (.inl ⟨n, hn, rfl⟩)))).named_nodup
    have := ih (h.addBlock hnamed) hbs
    simpa [List.append_assoc] using this

theorem addBlocks_frame (m : Multigraph) (bs : List Block) :
    (bs.foldl Multigraph.addBlock m).directed = m.directed ∧
      (bs.foldl Multigraph.addBlock m).attributes = m.attributes := by
  induction bs generalizing m with
  | nil => exact ⟨rfl, rfl⟩
  | cons b bs ih =>
    obtain ⟨hdirected, hattributes⟩ := m.addBlock_frame b
    obtain ⟨hdirected', hattributes'⟩ := ih (m.addBlock b)
    exact ⟨hdirected'.trans hdirected, hattributes'.trans hattributes⟩

end Multigraph

/-- The multigraph of a graph that was built agrees with its document. -/
theorem Graph.Built.exports {g : Graph} (hg : g.Built) : g.Exports g.toMultigraph := by
  obtain ⟨start, hstart⟩ : ∃ m : Multigraph,
      m = ⟨g.block.kind.isDirected, g.block.attributes.named, [], []⟩ := ⟨_, rfl⟩
  have hholds := (Multigraph.Holds.empty g.block.kind.isDirected g.block.attributes.named).addBlocks
    hg.block_reachable
  obtain ⟨hdirected, hattributes⟩ := Multigraph.addBlocks_frame start g.blocks
  rw [← hstart] at hholds
  rw [toMultigraph, fill_eq, ← hstart]
  obtain ⟨m, hm⟩ : ∃ m, m = g.blocks.foldl Multigraph.addBlock start := ⟨_, rfl⟩
  rw [← hm] at hholds hdirected hattributes ⊢
  -- both ends of an edge are mentioned with it
  have hends : ∀ e ∈ m.edges, e.tail ∈ m.nodes.map (·.1) := by
    intro e he
    have hmem := List.mem_map_of_mem (f := fun e : MultiEdge => (e.tail, e.head, e.attributes)) he
    rw [hholds.edges, List.nil_append] at hmem
    obtain ⟨e', he', heq⟩ := List.mem_map.1 hmem
    obtain ⟨b, hb, he'⟩ := List.mem_flatMap.1 he'
    rw [hholds.nodes, List.mem_eraseDups, List.nil_append]
    refine List.mem_flatMap.2 ⟨b, hb, List.mem_append_right _ (List.mem_flatMap.2 ⟨e', he', ?_⟩)⟩
    rw [(Prod.mk.inj heq).1]
    exact List.mem_cons_self
  refine ⟨by rw [hdirected, hstart], by rw [hattributes, hstart], hholds.nodes, hholds.merges, ?_,
    hholds.keys, ?_, fun indent => g.lines_eq indent _ 0⟩
  · rw [hholds.edges, writtenEdges, written_edges, List.nil_append]
  · refine Multigraph.listedEdges_lists ?_ hends
    rw [hholds.nodes]
    exact nodup_eraseDups _

namespace GraphStore

/-- **The multigraph of a graph agrees with its document**, whatever was done to the store. -/
theorem run_exports (calls : List Call) {depth : Nat} {id : GraphId} {g : Graph}
    (hg : (run calls).treeTo depth id = some g) : g.Exports g.toMultigraph :=
  ((run_sound calls).built hg).exports

/-- Two graphs that mention the same nodes, joined by an edge in each direction. -/
def sharedCalls : List Call := [
  .create none (.raw (.text "harbour")) .graph,
  .addEdge 0 (.named (.raw (.text "crane"))) (.named (.raw (.text "ship"))),
  .createSubgraph 0 (.raw (.text "dock")) false,
  .addNode 1 (.raw (.text "ship")),
  .addAttribute 1 (.node "ship") (.dot .comment) (.value (.string "twice")),
  .addEdge 1 (.node (.id ⟨"ship", by decide⟩)) (.node (.id ⟨"crane", by decide⟩))]

/-- The graph after these calls. -/
def sharedGraph : Graph :=
  .mk { Block.empty (.id ⟨"harbour", by decide⟩) .graph with
      nodes := [.ofName (.id ⟨"crane", by decide⟩), .ofName (.id ⟨"ship", by decide⟩)]
      edges := [.between "crane" "ship"] }
    [.mk { Block.empty (.id ⟨"dock", by decide⟩) .subgraph with
      nodes := [⟨.id ⟨"ship", by decide⟩,
        ⟨(Table.ofDot nodeAttributes).legal, [(.dot .comment, quoted "twice")]⟩⟩]
      edges := [.between "ship" "crane"] } []]

set_option maxRecDepth 4000 in
theorem sharedCalls_tree : (run sharedCalls).treeTo 2 0 = some sharedGraph := by
  rfl

/-- The edges of both graphs are parallel, and both declarations of a node are merged. -/
theorem sharedGraph_exports : sharedGraph.Exports sharedGraph.toMultigraph ∧
    sharedGraph.toMultigraph.nodes = [("crane", []), ("ship", [("comment", quoted "twice")])] ∧
    sharedGraph.toMultigraph.edges = [⟨"crane", "ship", 0, []⟩, ⟨"ship", "crane", 1, []⟩] :=
  ⟨run_exports sharedCalls sharedCalls_tree, by decide, by decide⟩

end GraphStore

end DotWriter
