import DotWriter.Proofs.Graph.Insertion
import Mathlib.Data.List.Forall2

/-!
# Listing a multigraph

The edges of a multigraph are listed node by node.  In an undirected graph, the list of a node leaves
out the neighbours that have been listed before, since they have shown their edges already.

* `Multigraph.Lists` : a listing that shows every edge once, perhaps from its other end;
* `neighbour?_eq_some` : which edges join a node and one of its neighbours;
* `listedEdges_lists` : **the listing of a multigraph shows every edge once**, if its nodes are
  distinct and have all ends of edges among them.
-/

namespace DotWriter

/-! ### Filters -/

section filter

variable {α β : Type} {l : List α}

/-- What passes one of two filters, of which no item passes both. -/
theorem filter_append_filter_perm {p q r : α → Bool} (hor : ∀ a ∈ l, p a = (q a || r a))
    (hnot : ∀ a ∈ l, q a = true → r a = false) : (l.filter q ++ l.filter r).Perm (l.filter p) := by
  have hq : (l.filter p).filter q = l.filter q := by
    rw [List.filter_filter]
    refine List.filter_congr fun a ha => ?_
    rw [hor a ha]
    cases q a <;> simp
  have hr : (l.filter p).filter (fun a => !q a) = l.filter r := by
    rw [List.filter_filter]
    refine List.filter_congr fun a ha => ?_
    rw [hor a ha]
    cases hqa : q a with
    | false => simp
    | true => simp [hnot a ha hqa]
  have := List.filter_append_perm q (l.filter p)
  rwa [hq, hr] at this

/-- Items that are collected by one of their properties. -/
theorem flatMap_filter_perm [DecidableEq β] {f : α → Option β} {bs : List β} (hbs : bs.Nodup) :
    (bs.flatMap fun b => l.filter fun a => f a == some b).Perm
      (l.filter fun a => (f a).any fun b => bs.contains b) := by
  induction bs with
  | nil => simp
  | cons b bs ih =>
    obtain ⟨hb, hbs⟩ := List.nodup_cons.1 hbs
    rw [List.flatMap_cons]
    refine ((ih hbs).append_left _).trans (filter_append_filter_perm (fun a _ => ?_) fun a _ ha => ?_)
    · rw [Bool.eq_iff_iff]
      cases f a <;> simp
    · rw [beq_iff_eq.1 ha]
      simpa using hb

end filter

namespace Multigraph

variable {m : Multigraph}

/-! ### One node -/

/-- The neighbour along an edge is the node that the edge joins with the given one. -/
theorem neighbour?_eq_some {node other : String} {e : MultiEdge} :
    m.neighbour? node e = some other ↔ m.joins node other e = true := by
  rw [joins_iff]
  unfold neighbour?
  by_cases htail : e.tail = node
  · simp only [htail, beq_self_eq_true, if_true, Option.some.injEq, true_and]
    constructor
    · exact .inl
    · rintro (h | ⟨-, hnode, h⟩)
      · exact h
      · rw [h, hnode]
  · simp only [beq_iff_eq, htail, if_false, false_and, false_or]
    cases m.directed with
    | true => simp
    | false =>
      by_cases hhead : e.head = node <;> simp [hhead]

theorem joins_eq (node other : String) :
    m.joins node other = fun e => m.neighbour? node e == some other := by
  funext e
  rw [Bool.eq_iff_iff, ← neighbour?_eq_some, beq_iff_eq]

/-- The edges in the list of a node as they are, not turned. -/
def shownAt (m : Multigraph) (listed : List String) (node : String) : List MultiEdge :=
  ((m.neighbours node).filter fun n => m.directed || !listed.contains n).flatMap fun n =>
    m.edges.filter (m.joins node n)

/-- Whether the list of a node shows an edge. -/
def showsAt (m : Multigraph) (listed : List String) (node : String) (e : MultiEdge) : Bool :=
  (m.neighbour? node e).any fun n => m.directed || !listed.contains n

theorem showsAt_iff {listed : List String} {node : String} {e : MultiEdge} :
    m.showsAt listed node e = true ↔
      ∃ other, m.joins node other e = true ∧ (m.directed = true ∨ other ∉ listed) := by
  simp [showsAt, Option.any_eq_true, neighbour?_eq_some]

theorem shownAt_perm (m : Multigraph) (listed : List String) (node : String) :
    (m.shownAt listed node).Perm (m.edges.filter (m.showsAt listed node)) := by
  have hnodup : ((m.neighbours node).filter fun n => m.directed || !listed.contains n).Nodup :=
    (nodup_eraseDups _).filter _
  unfold shownAt
  simp only [joins_eq]
  refine (flatMap_filter_perm hnodup).trans (List.Perm.of_eq ?_)
  refine List.filter_congr fun e he => ?_
  unfold showsAt
  cases hn : m.neighbour? node e with
  | none => rfl
  | some n =>
    have hmem : n ∈ m.neighbours node :=
      List.mem_eraseDups.2 (List.mem_filterMap.2 ⟨e, he, hn⟩)
    rw [Bool.eq_iff_iff]
    simp [hmem]

/-! ### All nodes -/

/-- The edges in the lists of the given nodes as they are, not turned. -/
def shownFrom (m : Multigraph) (listed : List String) : List String → List MultiEdge
  | [] => []
  | n :: ns => m.shownAt listed n ++ m.shownFrom (n :: listed) ns

/-- Whether the lists of the given nodes show an edge. -/
def showsFrom (m : Multigraph) (listed : List String) : List String → MultiEdge → Bool
  | [], _ => false
  | n :: ns, e => m.showsAt listed n e || m.showsFrom (n :: listed) ns e

/-- What shows an edge is one of its ends, from which its other end is no node listed before. -/
theorem exists_of_showsFrom {listed ns : List String} {e : MultiEdge}
    (h : m.showsFrom listed ns e = true) : ∃ node ∈ ns, ∃ other, m.joins node other e = true ∧
      (m.directed = true ∨ other ∉ listed) := by
  induction ns generalizing listed with
  | nil => cases h
  | cons n ns ih =>
    rw [showsFrom, Bool.or_eq_true] at h
    rcases h with h | h
    · exact ⟨n, List.mem_cons_self, showsAt_iff.1 h⟩
    · obtain ⟨node, hnode, other, hjoins, hfree⟩ := ih h
      refine ⟨node, List.mem_cons_of_mem _ hnode, other, hjoins, hfree.imp_right fun hnot hmem => ?_⟩
      exact hnot (List.mem_cons_of_mem _ hmem)

/-- An edge that one node shows is shown by no later one. -/
theorem showsFrom_of_showsAt {listed ns : List String} {n : String} (hn : n ∉ ns) {e : MultiEdge}
    (h : m.showsAt listed n e = true) : m.showsFrom (n :: listed) ns e = false := by
  rw [Bool.eq_false_iff]
  intro hlater
  obtain ⟨other, hjoins, -⟩ := showsAt_iff.1 h
  obtain ⟨node, hnode, other', hjoins', hfree⟩ := exists_of_showsFrom hlater
  have hne : node ≠ n := fun heq => hn (heq ▸ hnode)
  have hends : m.directed = false → other' ≠ n := by
    rintro hdirected rfl
    exact (hfree.resolve_left (by simp [hdirected])) List.mem_cons_self
  rw [joins_iff] at hjoins hjoins'
  grind

theorem shownFrom_perm (m : Multigraph) {listed ns : List String} (hns : ns.Nodup) :
    (m.shownFrom listed ns).Perm (m.edges.filter (m.showsFrom listed ns)) := by
  induction ns generalizing listed with
  | nil => simp [shownFrom, showsFrom]
  | cons n ns ih =>
    obtain ⟨hn, hns⟩ := List.nodup_cons.1 hns
    rw [shownFrom]
    exact ((m.shownAt_perm listed n).append (ih hns)).trans
      (filter_append_filter_perm (fun e _ => rfl) fun e _ => showsFrom_of_showsAt hn)

/-- An edge is shown by one of its ends that is still to come, unless one of them is listed. -/
theorem showsFrom_of_ends {listed ns : List String} {e : MultiEdge}
    (hlater : e.tail ∈ ns ∨ m.directed = false ∧ e.head ∈ ns)
    (hfree : m.directed = true ∨ e.tail ∉ listed ∧ e.head ∉ listed) :
    m.showsFrom listed ns e = true := by
  induction ns generalizing listed with
  | nil => simp at hlater
  | cons n ns ih =>
    rw [showsFrom, Bool.or_eq_true]
    by_cases htail : e.tail = n
    · exact .inl (showsAt_iff.2 ⟨e.head, joins_iff.2 (.inl ⟨htail, rfl⟩), hfree.imp_right (·.2)⟩)
    by_cases hhead : m.directed = false ∧ e.head = n
    · exact .inl (showsAt_iff.2 ⟨e.tail, joins_iff.2 (.inr ⟨hhead.1, rfl, hhead.2⟩),
        hfree.imp_right (·.1)⟩)
    right
    refine ih ?_ ?_
    · grind
    · grind

/-! ### The listing -/

/-- A listing of the edges of a multigraph: every edge is shown once, from one of its ends. -/
def Lists (m : Multigraph) (listing : List MultiEdge) : Prop :=
  ∃ shown : List MultiEdge, shown.Perm m.edges ∧ List.Forall₂ (fun e l : MultiEdge =>
    m.joins l.tail l.head e = true ∧ l.key = e.key ∧ l.attributes = e.attributes) shown listing

theorem shownFrom_turned (m : Multigraph) (listed ns : List String) :
    List.Forall₂ (fun e l : MultiEdge =>
      m.joins l.tail l.head e = true ∧ l.key = e.key ∧ l.attributes = e.attributes)
      (m.shownFrom listed ns) (m.edgesFrom listed ns) := by
  induction ns generalizing listed with
  | nil => exact .nil
  | cons n ns ih =>
    refine List.rel_append ?_ (ih _)
    unfold shownAt edgesAt
    refine List.rel_flatMap (R := Eq) ?_ ?_
    · exact List.forall₂_eq_eq_eq ▸ rfl
    · rintro other _ rfl
      rw [List.forall₂_map_right_iff, List.forall₂_same]
      exact fun e he => ⟨(List.mem_filter.1 he).2, rfl, rfl⟩

/-- **The listing of a multigraph shows every edge once**, if the nodes are distinct and the ends of
edges are among them. -/
theorem listedEdges_lists (hnodes : (m.nodes.map (·.1)).Nodup)
    (hends : ∀ e ∈ m.edges, e.tail ∈ m.nodes.map (·.1)) : m.Lists m.listedEdges := by
  refine ⟨m.shownFrom [] (m.nodes.map (·.1)), ?_, m.shownFrom_turned _ _⟩
  refine (m.shownFrom_perm hnodes).trans (List.Perm.of_eq (List.filter_eq_self.2 fun e he => ?_))
  exact showsFrom_of_ends (.inl (hends e he)) (by simp)

end Multigraph

end DotWriter
