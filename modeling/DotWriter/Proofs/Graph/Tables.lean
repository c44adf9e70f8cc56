import DotWriter.Proofs.Attribute.History
import DotWriter.Proofs.Graph.Growth

/-!
# The tables of a block

A block keeps tables for itself, for the defaults of nodes and edges, and for each of its nodes and
edges.

* `storedText_isDelimited` : the text that a table keeps for a value brings its own delimiters;
* `Table.IsDot` : a table for attributes of graphs, nodes and edges, after any calls;
* `Block.Reachable.tables_isDot` : **every table of a block that can be built is one**.
-/

namespace DotWriter

/-! ### Stored texts -/

/-- A text that begins like a quoted string or like markup. -/
def IsDelimited (s : String) : Prop := s.toList.head? = some '"' ∨ s.toList.head? = some '<'

theorem quote_isDelimited (s t : String) : IsDelimited ("\"" ++ s ++ t) := by
  left
  simp

theorem storedText_isDelimited {attr : AttributeId} {v : Value} {text : String}
    (h : storedText attr v = .ok text) : IsDelimited text := by
  have hquoted : ∀ s, IsDelimited (quoted s) := fun s => .inl (by simp [quoted, quotedChars])
  have hstring : ∀ s, IsDelimited
      (if attr.isHtml then "\"" ++ escapeHtml s ++ "\"" else quoted s) := by
    intro s
    split_ifs
    · exact quote_isDelimited _ _
    · exact hquoted s
  unfold storedText at h
  split at h
  · cases h
    exact hstring _
  · cases h
    exact hstring _
  · obtain ⟨content, -, h⟩ := Outcome.bind_eq_ok.1 h
    cases h
    right
    simp
  · obtain ⟨t, -, ht⟩ := Outcome.bind_eq_ok.1 h
    cases ht
    exact quote_isDelimited _ _

/-! ### Tables -/

/-- The table after calls on a new one for attributes of graphs, nodes or edges. -/
def Table.IsDot (t : Table) : Prop :=
  ∃ legal ws, t = Table.run legal ws ∧ ∀ attr ∈ legal, ∃ a, attr = .dot a

namespace Table.IsDot

variable {t : Table}

theorem ofLegal {legal : List AttributeId} (h : ∀ attr ∈ legal, ∃ a, attr = .dot a) :
    (Table.ofLegal legal).IsDot := ⟨legal, [], rfl, h⟩

theorem ofDot (legal : List DotAttribute) : (Table.ofDot legal).IsDot := by
  refine ofLegal fun attr h => ?_
  obtain ⟨a, -, rfl⟩ := List.mem_map.1 h
  exact ⟨a, rfl⟩

theorem add (ht : t.IsDot) (attr : AttributeId) (d : Datum) : (t.add attr d).2.IsDot := by
  obtain ⟨legal, ws, rfl, hlegal⟩ := ht
  refine ⟨legal, ws ++ [(attr, d)], ?_, hlegal⟩
  rw [run_concat, attempt]

theorem exists_dot (ht : t.IsDot) {e : AttributeId × String} (he : e ∈ t.entries) :
    ∃ a, e.1 = .dot a := by
  obtain ⟨legal, ws, rfl, hlegal⟩ := ht
  exact hlegal e.1 (mem_legal_of_mem_entries he)

theorem isDelimited (ht : t.IsDot) {e : AttributeId × String} (he : e ∈ t.entries) :
    IsDelimited e.2 := by
  obtain ⟨legal, ws, rfl, -⟩ := ht
  obtain ⟨v, hv⟩ := exists_value_of_mem_entries he
  exact storedText_isDelimited (checkValue_eq_ok.1 hv).2

theorem toList_render (ht : t.IsDot) : t.render.toList = t.entries.flatMap entryChars := by
  obtain ⟨legal, ws, rfl, -⟩ := ht
  exact toList_render_run legal ws

end Table.IsDot

theorem GraphKind.legal_isDot (k : GraphKind) : ∀ attr ∈ k.legal, ∃ a, attr = .dot a := by
  intro attr h
  unfold GraphKind.legal union at h
  rw [List.mem_eraseDups, List.mem_flatten] at h
  obtain ⟨list, hlist, hattr⟩ := h
  -- each of the lists comes from a list of attributes of graphs
  have hdot : ∃ as : List DotAttribute, list = as.map AttributeId.dot := by
    split_ifs at hlist <;> simp only [List.mem_cons, List.mem_nil_iff, or_false] at hlist
    · exact hlist.elim (fun h => ⟨_, h⟩) fun h => ⟨_, h⟩
    · exact hlist.elim (fun h => ⟨_, h⟩) fun h => ⟨_, h⟩
    · exact ⟨_, hlist⟩
    · exact ⟨_, hlist⟩
  obtain ⟨as, rfl⟩ := hdot
  obtain ⟨a, -, rfl⟩ := List.mem_map.1 hattr
  exact ⟨a, rfl⟩

namespace Block

/-- All tables of a block. -/
def tables (b : Block) : List Table :=
  [b.attributes, b.nodeDefaults, b.edgeDefaults] ++ b.nodes.map Node.attributes ++
    b.edges.map Edge.attributes

theorem mem_tables {b : Block} {t : Table} :
    t ∈ b.tables ↔ (∃ role : TableRole, t = role.get b) ∨ (∃ n ∈ b.nodes, t = n.attributes) ∨
      ∃ e ∈ b.edges, t = e.attributes := by
  have hroles : (∃ role : TableRole, t = role.get b) ↔
      t = b.attributes ∨ t = b.nodeDefaults ∨ t = b.edgeDefaults := by
    constructor
    · rintro ⟨role, rfl⟩
      cases role <;> simp [TableRole.get]
    · rintro (rfl | rfl | rfl)
      · exact ⟨.attributes, rfl⟩
      · exact ⟨.nodeDefaults, rfl⟩
      · exact ⟨.edgeDefaults, rfl⟩
  rw [hroles]
  simp only [tables, List.mem_append, List.mem_cons, List.mem_nil_iff, or_false, List.mem_map,
    eq_comm (a := t), or_assoc]

theorem mem_tables_of_table? {b : Block} {site : TableSite} {t : Table}
    (h : b.table? site = some t) : t ∈ b.tables := by
  cases site with
  | own role =>
    cases h
    exact mem_tables.2 (.inl ⟨role, rfl⟩)
  | node key =>
    obtain ⟨n, hn, rfl⟩ := Option.map_eq_some_iff.1 h
    exact mem_tables.2 (.inr (.inl ⟨n, List.mem_of_find?_eq_some hn, rfl⟩))
  | edge i =>
    obtain ⟨e, he, rfl⟩ := Option.map_eq_some_iff.1 h
    exact mem_tables.2 (.inr (.inr ⟨e, List.mem_of_getElem? he, rfl⟩))

theorem mem_tables_setTable {b : Block} {site : TableSite} {t u : Table}
    (h : u ∈ (b.setTable t site).tables) : u = t ∨ u ∈ b.tables := by
  cases site with
  | own role =>
    -- the tables of the other roles, of nodes and of edges are as before
    rcases mem_tables.1 h with ⟨other, rfl⟩ | hnode | hedge
    · by_cases heq : other = role
      · subst heq
        cases other <;> exact .inl rfl
      · right
        refine mem_tables.2 (.inl ⟨other, ?_⟩)
        cases other <;> cases role <;> first | rfl | exact absurd rfl heq
    · cases role <;> exact .inr (mem_tables.2 (.inr (.inl hnode)))
    · cases role <;> exact .inr (mem_tables.2 (.inr (.inr hedge)))
  | node key =>
    rcases mem_tables.1 h with ⟨role, rfl⟩ | ⟨n, hn, rfl⟩ | hedge
    · exact .inr (mem_tables.2 (.inl ⟨role, by cases role <;> rfl⟩))
    · obtain ⟨m, hm, rfl⟩ := List.mem_map.1 hn
      split_ifs
      · exact .inl rfl
      · exact .inr (mem_tables.2 (.inr (.inl ⟨m, hm, rfl⟩)))
    · exact .inr (mem_tables.2 (.inr (.inr hedge)))
  | edge i =>
    rcases mem_tables.1 h with ⟨role, rfl⟩ | hnode | ⟨e, he, rfl⟩
    · exact .inr (mem_tables.2 (.inl ⟨role, by cases role <;> rfl⟩))
    · exact .inr (mem_tables.2 (.inr (.inl hnode)))
    · obtain ⟨j, hj⟩ := List.mem_iff_getElem?.1 he
      rw [setTable, List.getElem?_modify] at hj
      obtain ⟨f, hf, rfl⟩ := Option.map_eq_some_iff.1 hj
      split_ifs
      · exact .inl rfl
      · exact .inr (mem_tables.2 (.inr (.inr ⟨f, List.mem_of_getElem? hf, rfl⟩)))

/-- A step keeps the tables for attributes of graphs, nodes and edges. -/
theorem Grows.tables_isDot {b b' : Block} (h : Grows b b') (hb : ∀ t ∈ b.tables, t.IsDot) :
    ∀ t ∈ b'.tables, t.IsDot := by
  intro t ht
  cases h with
  | @node name hn =>
    rcases mem_tables.1 ht with ⟨role, rfl⟩ | ⟨n, hnode, rfl⟩ | hedge
    · exact hb _ (mem_tables.2 (.inl ⟨role, by cases role <;> rfl⟩))
    · rcases List.mem_append.1 hnode with hnode | hnode
      · exact hb _ (mem_tables.2 (.inr (.inl ⟨n, hnode, rfl⟩)))
      · rw [List.mem_singleton.1 hnode]
        exact .ofDot nodeAttributes
    · exact hb _ (mem_tables.2 (.inr (.inr hedge)))
  | edge tail head =>
    rcases mem_tables.1 ht with ⟨role, rfl⟩ | hnode | ⟨e, hedge, rfl⟩
    · exact hb _ (mem_tables.2 (.inl ⟨role, by cases role <;> rfl⟩))
    · exact hb _ (mem_tables.2 (.inr (.inl hnode)))
    · rcases List.mem_append.1 hedge with hedge | hedge
      · exact hb _ (mem_tables.2 (.inr (.inr ⟨e, hedge, rfl⟩)))
      · rw [List.mem_singleton.1 hedge]
        exact .ofDot edgeAttributes
  | write hsite attr d =>
    rcases mem_tables_setTable ht with rfl | ht
    · exact (hb _ (mem_tables_of_table? hsite)).add attr d
    · exact hb t ht

/-- **Every table of a block that can be built is one for attributes of graphs, nodes and
edges.** -/
theorem Reachable.tables_isDot {b : Block} (h : b.Reachable) : ∀ t ∈ b.tables, t.IsDot := by
  refine h.rec_on ?_ fun b b' hb hg => hg.tables_isDot hb
  intro t ht
  rcases mem_tables.1 ht with ⟨role, rfl⟩ | ⟨n, hn, -⟩ | ⟨e, he, -⟩
  · cases role with
    | attributes => exact .ofLegal b.kind.legal_isDot
    | nodeDefaults => exact .ofDot nodeAttributes
    | edgeDefaults => exact .ofDot edgeAttributes
  · exact absurd hn List.not_mem_nil
  · exact absurd he List.not_mem_nil

end Block

end DotWriter
