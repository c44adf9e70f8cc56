import DotWriter.Graph.Multigraph
import Mathlib.Data.List.Induction
import Mathlib.Data.List.Nodup

/-!
# Insertion into a multigraph

Nodes and edges are inserted into a multigraph one after another.  `Multigraph.Holds` says what the
multigraph has got in this way: which keys were mentioned, which attributes the nodes were given, and
which edges came in.

* `Attributes.Merges` : attributes that are the outcome of writing items in order;
* `Merges.update` : more items can be written;
* `Holds.addNode`, `Holds.addEdge` : what one insertion does;
* `Holds.addBlock` : what the nodes and edges of a block do.
-/

namespace DotWriter

/-! ### Attributes -/

/-- The attributes are what is left of the items if they are written in order: every name stands
where it was written first, with the text that was written last. -/
structure Attributes.Merges (attrs items : Attributes) : Prop where
  names : attrs.map (·.1) = (items.map (·.1)).eraseDups
  texts : ∀ a ∈ attrs, items.reverse.lookup a.1 = some a.2

/-- Only what is new is added to a list without repetitions. -/
theorem eraseDups_concat {α : Type} [DecidableEq α] (l : List α) (a : α) :
    (l ++ [a]).eraseDups = if a ∈ l then l.eraseDups else l.eraseDups ++ [a] := by
  rw [List.eraseDups_append]
  split_ifs with h
  · simp [List.removeAll, h]
  · have hsingle : [a].removeAll l = [a] := by simp [List.removeAll, h]
    rw [hsingle]
    rfl

theorem nodup_eraseDups {α : Type} [DecidableEq α] (l : List α) : l.eraseDups.Nodup := by
  induction l using List.reverseRecOn with
  | nil => exact List.nodup_nil
  | append_singleton l a ih =>
    rw [eraseDups_concat]
    split_ifs with h
    · exact ih
    · rw [← List.concat_eq_append]
      exact ih.concat fun hmem => h (List.mem_eraseDups.1 hmem)

theorem any_name_iff {α : Type} {l : List (String × α)} {name : String} :
    (l.any fun a => a.1 == name) = true ↔ name ∈ l.map (·.1) := by
  simp only [List.any_eq_true, List.mem_map, beq_iff_eq]

namespace Attributes.Merges

variable {attrs items : Attributes}

theorem set (h : Merges attrs items) (name text : String) :
    Merges (Attributes.set attrs name text) (items ++ [(name, text)]) := by
  have hany : (attrs.any fun a => a.1 == name) = true ↔ name ∈ items.map (·.1) := by
    rw [← List.mem_eraseDups, ← h.names, any_name_iff]
  -- the text of another name is the one that it had before
  have hother : ∀ a ∈ attrs, a.1 ≠ name →
      (items ++ [(name, text)]).reverse.lookup a.1 = some a.2 := by
    intro a ha hne
    have hbeq : (a.1 == name) = false := beq_eq_false_iff_ne.2 hne
    rw [List.reverse_append, List.reverse_singleton, List.singleton_append, List.lookup_cons, hbeq]
    exact h.texts a ha
  have hself : (items ++ [(name, text)]).reverse.lookup name = some text := by simp
  unfold Attributes.set
  split_ifs with hmem
  · refine ⟨?_, fun a ha => ?_⟩
    · rw [List.map_append, List.map_singleton, eraseDups_concat, if_pos (hany.1 hmem), ← h.names,
        List.map_map]
      refine List.map_congr_left fun a _ => ?_
      simp only [Function.comp_apply]
      split_ifs with ha
      · exact (beq_iff_eq.1 ha).symm
      · rfl
    · obtain ⟨b, hb, rfl⟩ := List.mem_map.1 ha
      split_ifs with hname
      · exact hself
      · exact hother b hb fun heq => hname (beq_iff_eq.2 heq)
  · refine ⟨?_, fun a ha => ?_⟩
    · rw [List.map_append, List.map_append, List.map_singleton, eraseDups_concat,
        if_neg fun hin => hmem (hany.2 hin), ← h.names]
    · rcases List.mem_append.1 ha with ha | ha
      · exact hother a ha fun heq => hmem (any_name_iff.2 (List.mem_map.2 ⟨a, ha, heq⟩))
      · rw [List.mem_singleton.1 ha]
        exact hself

/-- Items may be written to attributes. -/
theorem update (h : Merges attrs items) (news : Attributes) :
    Merges (attrs.update news) (items ++ news) := by
  induction news generalizing attrs items with
  | nil => rwa [List.append_nil]
  | cons a news ih =>
    have := ih (h.set a.1 a.2)
    rwa [List.append_assoc] at this

/-- Items of different names are attributes. -/
theorem of_nodup (h : (items.map (·.1)).Nodup) : Merges items items := by
  induction items using List.reverseRecOn with
  | nil => exact ⟨rfl, fun a ha => absurd ha List.not_mem_nil⟩
  | append_singleton items a ih =>
    rw [List.map_append, List.nodup_append'] at h
    have hnew : ¬ (items.any fun b => b.1 == a.1) = true :=
      fun hany => h.2.2 (any_name_iff.1 hany) List.mem_cons_self
    have hset := (ih h.1).set a.1 a.2
    rwa [Attributes.set, if_neg hnew] at hset

end Attributes.Merges

/-! ### Nodes and edges -/

namespace Multigraph

/-- What was inserted into a multigraph without nodes and edges: the keys `mentioned`, the `items`
for each node, and the `edges`, all in order. -/
structure Holds (m : Multigraph) (mentioned : List String) (items : String → Attributes)
    (edges : List (String × String × Attributes)) : Prop where
  nodes : m.nodes.map (·.1) = mentioned.eraseDups
  merges : ∀ n ∈ m.nodes, n.2.Merges (items n.1)
  /-- What is not mentioned has no items. -/
  unmentioned : ∀ key, key ∉ mentioned → items key = []
  edges : m.edges.map (fun e => (e.tail, e.head, e.attributes)) = edges
  /-- Parallel edges are numbered in the order in which they came in. -/
  keys : ∀ tail head, (m.edges.filter (m.joins tail head)).map MultiEdge.key =
    List.range (m.edges.countP (m.joins tail head))

theorem joins_iff {m : Multigraph} {tail head : String} {e : MultiEdge} :
    m.joins tail head e = true ↔ (e.tail = tail ∧ e.head = head) ∨
      (m.directed = false ∧ e.tail = head ∧ e.head = tail) := by
  simp [joins, and_assoc]

/-- An edge joins the nodes that the edges parallel to it join. -/
theorem joins_congr {m : Multigraph} {tail head : String} {e : MultiEdge}
    (h : m.joins tail head e = true) : m.joins tail head = m.joins e.tail e.head := by
  funext e'
  rw [Bool.eq_iff_iff, joins_iff, joins_iff]
  rcases joins_iff.1 h with ⟨rfl, rfl⟩ | ⟨hdirected, rfl, rfl⟩
  · exact Iff.rfl
  · simp only [hdirected, true_and]
    exact or_comm

variable {m : Multigraph} {mentioned : List String} {items : String → Attributes}
  {edges : List (String × String × Attributes)}

@[simp] theorem addNode_directed (m : Multigraph) (key : String) (attrs : Attributes) :
    (m.addNode key attrs).directed = m.directed := by
  unfold addNode
  split_ifs <;> rfl

@[simp] theorem addNode_attributes (m : Multigraph) (key : String) (attrs : Attributes) :
    (m.addNode key attrs).attributes = m.attributes := by
  unfold addNode
  split_ifs <;> rfl

@[simp] theorem addNode_edges (m : Multigraph) (key : String) (attrs : Attributes) :
    (m.addNode key attrs).edges = m.edges := by
  unfold addNode
  split_ifs <;> rfl

namespace Holds

theorem empty (directed : Bool) (attributes : Attributes) :
    Holds ⟨directed, attributes, [], []⟩ [] (fun _ => []) [] :=
  ⟨rfl, nofun, fun _ _ => rfl, rfl, fun _ _ => rfl⟩

/-- A node takes over attributes; one that is new comes last. -/
theorem addNode (h : Holds m mentioned items edges) (key : String) {attrs : Attributes}
    (hattrs : (attrs.map (·.1)).Nodup) :
    Holds (m.addNode key attrs) (mentioned ++ [key])
      (fun k => items k ++ if k = key then attrs else []) edges := by
  have hany : (m.nodes.any fun n => n.1 == key) = true ↔ key ∈ mentioned := by
    rw [← List.mem_eraseDups, ← h.nodes, any_name_iff]
  refine ⟨?_, fun n hn => ?_, fun k hk => ?_, ?_, fun tail head => ?_⟩
  · rw [eraseDups_concat, ← h.nodes]
    unfold Multigraph.addNode
    simp only [hany]
    split_ifs with hin
    · rw [List.map_map]
      refine List.map_congr_left fun n _ => ?_
      simp only [Function.comp_apply]
      split_ifs with hkey
      · exact (beq_iff_eq.1 hkey).symm
      · rfl
    · rw [List.map_append, List.map_singleton]
  · unfold Multigraph.addNode at hn
    split_ifs at hn with hin
    · obtain ⟨n', hn', rfl⟩ := List.mem_map.1 hn
      by_cases hkey : n'.1 = key
      · subst hkey
        rw [if_pos (beq_self_eq_true _), if_pos rfl]
        exact (h.merges n' hn').update attrs
      · rw [if_neg fun heq => hkey (beq_iff_eq.1 heq), if_neg hkey, List.append_nil]
        exact h.merges n' hn'
    · rcases List.mem_append.1 hn with hn | hn
      · have hne : n.1 ≠ key := fun heq => hin (any_name_iff.2 (List.mem_map.2 ⟨n, hn, heq⟩))
        rw [if_neg hne, List.append_nil]
        exact h.merges n hn
      · rw [List.mem_singleton.1 hn, if_pos rfl,
          h.unmentioned key fun hmem => hin (hany.2 hmem), List.nil_append]
        exact .of_nodup hattrs
  · have hnot : k ∉ mentioned ∧ k ≠ key := by simpa using hk
    rw [h.unmentioned k hnot.1, if_neg hnot.2, List.append_nil]
  · rw [addNode_edges, h.edges]
  · have hjoins : (m.addNode key attrs).joins tail head = m.joins tail head := by
      funext e
      simp [joins]
    rw [addNode_edges, hjoins, h.keys]

/-- A key that is mentioned gets no items. -/
theorem mention (h : Holds m mentioned items edges) (key : String) :
    Holds (m.addNode key []) (mentioned ++ [key]) items edges := by
  have : Holds (m.addNode key []) _ _ _ := h.addNode key List.nodup_nil
  simpa using this

/-- An edge comes last, after its ends. -/
theorem addEdge (h : Holds m mentioned items edges) (tail head : String) (attrs : Attributes) :
    Holds (m.addEdge tail head attrs) (mentioned ++ [tail, head]) items
      (edges ++ [(tail, head, attrs)]) := by
  have hends := (h.mention tail).mention head
  rw [List.append_assoc] at hends
  obtain ⟨m', hm'⟩ : ∃ m', m' = (m.addNode tail []).addNode head [] := ⟨_, rfl⟩
  rw [← hm'] at hends
  rw [Multigraph.addEdge, ← hm']
  refine ⟨hends.nodes, hends.merges, hends.unmentioned, ?_, fun t d => ?_⟩
  · rw [List.map_append, hends.edges]
    rfl
  · -- the new edge gets the next number among those that join its ends
    have hkeys := hends.keys t d
    change ((m'.edges ++ _).filter (m'.joins t d)).map _ =
      List.range ((m'.edges ++ _).countP (m'.joins t d))
    rw [List.filter_append, List.map_append, List.countP_append, hkeys]
    by_cases hjoins :
        m'.joins t d ⟨tail, head, m'.edges.countP (m'.joins tail head), attrs⟩ = true
    · rw [List.filter_cons_of_pos hjoins, List.countP_cons_of_pos hjoins, joins_congr hjoins,
        List.filter_nil, List.countP_nil, List.range_succ]
      rfl
    · rw [List.filter_cons_of_neg hjoins, List.countP_cons_of_neg hjoins]
      simp

variable {ns : List Node} {es : List Edge}

theorem addNodes (h : Holds m mentioned items edges)
    (hns : ∀ n ∈ ns, (n.attributes.named.map (·.1)).Nodup) :
    Holds (ns.foldl (fun m n => m.addNode n.key n.attributes.named) m) (mentioned ++ ns.map Node.key)
      (fun k => items k ++ ns.flatMap fun n => if k = n.key then n.attributes.named else [])
      edges := by
  induction ns generalizing m mentioned items with
  | nil => simpa using h
  | cons n ns ih =>
    obtain ⟨hn, hns⟩ := List.forall_mem_cons.1 hns
    have := ih (h.addNode n.key hn) hns
    simpa [List.append_assoc] using this

theorem addEdges (h : Holds m mentioned items edges) :
    Holds (es.foldl (fun m e => m.addEdge e.tail e.head e.attributes.named) m)
      (mentioned ++ es.flatMap fun e => [e.tail, e.head]) items
      (edges ++ es.map fun e => (e.tail, e.head, e.attributes.named)) := by
  induction es generalizing m mentioned edges with
  | nil => simpa using h
  | cons e es ih =>
    have := ih (h.addEdge e.tail e.head e.attributes.named)
    simpa [List.append_assoc] using this

end Holds

end Multigraph

namespace Block

/-- The keys that a block mentions: those of its nodes, then those of the ends of its edges. -/
def mentioned (b : Block) : List String := b.keys ++ b.edges.flatMap fun e => [e.tail, e.head]

/-- The attributes that a block declares for the node of a key. -/
def itemsOf (b : Block) (key : String) : Attributes :=
  b.nodes.flatMap fun n => if key = n.key then n.attributes.named else []

end Block

namespace Multigraph

variable {m : Multigraph} {mentioned : List String} {items : String → Attributes}
  {edges : List (String × String × Attributes)}

/-- Insertion leaves the multigraph itself as it is. -/
theorem addBlock_frame (m : Multigraph) (b : Block) :
    (m.addBlock b).directed = m.directed ∧ (m.addBlock b).attributes = m.attributes := by
  have hnodes := List.foldlRecOn (motive := fun m' : Multigraph =>
      m'.directed = m.directed ∧ m'.attributes = m.attributes) b.nodes
    (fun m n => m.addNode n.key n.attributes.named) ⟨rfl, rfl⟩ fun m' hm' n _ => by
      simpa using hm'
  exact List.foldlRecOn (motive := fun m' : Multigraph =>
      m'.directed = m.directed ∧ m'.attributes = m.attributes) b.edges
    (fun m e => m.addEdge e.tail e.head e.attributes.named) hnodes fun m' hm' e _ => by
      simpa [addEdge] using hm'

/-- What a block declares comes last: its nodes, then its edges. -/
theorem Holds.addBlock (h : Holds m mentioned items edges) {b : Block}
    (hb : ∀ n ∈ b.nodes, (n.attributes.named.map (·.1)).Nodup) :
    Holds (m.addBlock b) (mentioned ++ b.mentioned) (fun k => items k ++ b.itemsOf k)
      (edges ++ b.edges.map fun e => (e.tail, e.head, e.attributes.named)) := by
  have : Holds (m.addBlock b) _ _ _ := (h.addNodes hb).addEdges
  rwa [List.append_assoc] at this

end Multigraph

end DotWriter
