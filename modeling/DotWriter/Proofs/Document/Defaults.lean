import DotWriter.Proofs.Document.RoundTrip
import DotWriter.Proofs.Graph.NodeIdentity
import DotWriter.Proofs.Value.Reading

/-!
# Statements that set defaults

A block sets defaults for graphs, nodes and edges by statements that begin with a keyword.  Names
are written without a look at keywords, so the statement of a node may set defaults instead of
declaring the node.

* `Table.IsDot.exists_statement` : what a statement is made of;
* `Name.render_eq_keyword` : the only name that is written like a keyword is that identifier;
* `Block.Reachable.defaults_of_node_iff` : **the statement of a node sets defaults exactly if the
  node has the name of the keyword**, and all other statements that do come from the tables of the
  block.
-/

namespace DotWriter

/-! ### Attributes between brackets -/

/-- The text that a table keeps for a value does not end in a blank. -/
theorem storedText_exists_last {attr : AttributeId} {v : Value} {text : String}
    (h : storedText attr v = .ok text) :
    ∃ front c, text.toList = front ++ [c] ∧ isBlank c = false := by
  have hquote : ∀ s : String, ∃ front c, ("\"" ++ s ++ "\"").toList = front ++ [c] ∧
      isBlank c = false := fun s => ⟨'"' :: s.toList, '"', by simp, rfl⟩
  have hquoted : ∀ s : String, ∃ front c, (quoted s).toList = front ++ [c] ∧
      isBlank c = false := by
    intro s
    refine ⟨'"' :: s.toList.flatMap quoteChar, '"', ?_, rfl⟩
    rw [quoted, String.toList_ofList, quotedChars, List.cons_append]
  unfold storedText at h
  split at h
  · cases h
    split_ifs
    · exact hquote _
    · exact hquoted _
  · cases h
    split_ifs
    · exact hquote _
    · exact hquoted _
  · obtain ⟨content, -, h⟩ := Outcome.bind_eq_ok.1 h
    cases h
    exact ⟨'<' :: content.toList, '>', by simp, rfl⟩
  · obtain ⟨t, -, ht⟩ := Outcome.bind_eq_ok.1 h
    cases ht
    exact hquote t

namespace Table.IsDot

variable {t u : Table}

theorem exists_last (ht : t.IsDot) {e : AttributeId × String} (he : e ∈ t.entries) :
    ∃ front c, e.2.toList = front ++ [c] ∧ isBlank c = false := by
  obtain ⟨legal, ws, rfl, -⟩ := ht
  obtain ⟨v, hv⟩ := exists_value_of_mem_entries he
  exact storedText_exists_last (checkValue_eq_ok.1 hv).2

/-- A table that is not empty is written with one blank in front and none at the end. -/
theorem strip_render (ht : t.IsDot) (hne : t.entries ≠ []) :
    t.render.toList = ' ' :: strip t.render.toList ∧ strip t.render.toList ≠ [] := by
  rw [ht.toList_render]
  obtain ⟨e, es, hes⟩ := List.exists_cons_of_ne_nil hne
  obtain ⟨a, ha⟩ := ht.exists_dot (hes ▸ List.mem_cons_self : e ∈ t.entries)
  obtain ⟨c, rest, hname, hc⟩ := a.isName.token.exists_first
  have hfirst : t.entries.flatMap entryChars =
      ' ' :: c :: (rest ++ '=' :: (e.2.toList ++ es.flatMap entryChars)) := by
    simp [hes, entryChars, ha, hname, AttributeId.name]
  -- the last character is that of the last text
  obtain ⟨init, last, hsplit⟩ := (List.eq_nil_or_concat' t.entries).resolve_left hne
  obtain ⟨front, d, htext, hd⟩ := ht.exists_last (hsplit ▸ by simp : last ∈ t.entries)
  have hlast : t.entries.flatMap entryChars =
      (init.flatMap entryChars ++ ' ' :: (last.1.name.toList ++ '=' :: front)) ++ [d] := by
    simp [hsplit, entryChars, htext]
  rw [hfirst] at hlast ⊢
  rw [strip_blank_cons hc hd hlast]
  exact ⟨rfl, List.cons_ne_nil c _⟩

/-- What a statement is made of: its head and, unless the table is empty, the entries in brackets. -/
theorem toList_statement (ht : t.IsDot) (head : String) :
    (statement head t).toList = head.toList ++
      if t.entries = [] then [';'] else ' ' :: '[' :: (strip t.render.toList ++ [']', ';']) := by
  unfold statement
  by_cases hnil : t.entries = []
  · have hrender : t.render.toList = [] := by rw [ht.toList_render, hnil, List.flatMap_nil]
    simp [hnil, hrender, strip, trim]
  · have hstrip := (ht.strip_render hnil).2
    simp [hnil, hstrip]

end Table.IsDot

/-! ### Names and keywords -/

/-- The keyword that a statement for one of the tables of a block begins with. -/
def TableRole.keyword : TableRole → Keyword
  | attributes => .graph
  | nodeDefaults => .node
  | edgeDefaults => .edge

namespace Name

/-- The identifier that is written like a keyword. -/
def ofKeyword (k : Keyword) : Name := .id ⟨k.text, k.isIdentifier_text⟩

theorem not_mem_blank_of_isBare {n : Name} (h : n.IsBare) : ' ' ∉ n.render.toList := by
  have hnumber : n.IsNumber → ' ' ∉ n.render.toList := fun hn hmem =>
    absurd (isNumberText_render hn ' ' hmem) (by decide)
  cases n with
  | id x => exact fun hmem => absurd ((isBareChar_of_isIdentifier x.valid).2 ' ' hmem) (by decide)
  | int n => exact hnumber trivial
  | double x => exact hnumber trivial
  | string s => exact h.elim

end Name

namespace Keyword

theorem not_mem_blank (k : Keyword) : ' ' ∉ k.text.toList := by
  cases k <;> decide

theorem exists_first (k : Keyword) :
    ∃ c cs, k.text.toList = c :: cs ∧ c ≠ '"' ∧ isNumberChar c = false := by
  cases k <;> exact ⟨_, _, rfl, by decide, by decide⟩

end Keyword

namespace Name

/-- The only name that is written like a keyword is that identifier. -/
theorem render_eq_keyword {n : Name} {k : Keyword} : n.render = k.text ↔ n = ofKeyword k := by
  obtain ⟨c, cs, htext, hquote, hdigit⟩ := k.exists_first
  have hnumber : n.IsNumber → n.render ≠ k.text := by
    intro hn heq
    have hchar := isNumberText_render hn c (by rw [heq, htext]; exact List.mem_cons_self)
    rw [hdigit] at hchar
    cases hchar
  constructor
  · intro h
    cases n with
    | id x =>
      obtain ⟨name, valid⟩ := x
      have hname : name = k.text := h
      subst hname
      rfl
    | int n => exact absurd h (hnumber trivial)
    | double x => exact absurd h (hnumber trivial)
    | string s =>
      have hchars := congrArg String.toList h
      rw [htext, render, quoted, String.toList_ofList, quotedChars] at hchars
      exact absurd (List.cons.inj hchars).1.symm hquote
  · rintro rfl
    rfl

/-- What begins like a keyword does not begin with a string. -/
theorem isBare_of_append {n : Name} {k : Keyword} {cs ds : List Char}
    (h : n.render.toList ++ cs = k.text.toList ++ ds) : n.IsBare := by
  obtain ⟨c, rest, htext, hquote, -⟩ := k.exists_first
  cases n with
  | string s =>
    rw [htext, render, quoted, String.toList_ofList, quotedChars] at h
    exact absurd (List.cons.inj h).1.symm hquote
  | _ => trivial

/-- What begins with a name and goes on with a blank begins with a keyword and a blank only if the
name is that identifier. -/
theorem eq_keyword_of_append {n : Name} {k : Keyword} {cs ds : List Char}
    (h : n.render.toList ++ ' ' :: cs = k.text.toList ++ ' ' :: ds) :
    n = ofKeyword k ∧ cs = ds := by
  have hname := not_mem_blank_of_isBare (isBare_of_append h)
  have hcut := congrArg (cutFirst ' ') h
  rw [cutFirst_append hname, cutFirst_append k.not_mem_blank] at hcut
  obtain ⟨htext, hrest⟩ := Prod.mk.inj (Option.some.inj hcut)
  exact ⟨render_eq_keyword.1 (String.toList_inj.1 htext), hrest⟩

/-- What begins with a name that is followed by no blank does not begin with a keyword and a
blank. -/
theorem append_ne_keyword {n : Name} {k : Keyword} {cs ds : List Char} (hcs : ' ' ∉ cs) :
    n.render.toList ++ cs ≠ k.text.toList ++ ' ' :: ds := by
  intro h
  have hname := not_mem_blank_of_isBare (isBare_of_append h)
  have hblank : ' ' ∈ n.render.toList ++ cs := by
    rw [h]
    exact List.mem_append_right _ List.mem_cons_self
  rcases List.mem_append.1 hblank with hmem | hmem
  · exact hname hmem
  · exact hcs hmem

end Name

/-! ### Statements -/

namespace Block

/-- The statement sets defaults: a block writes it for its table of the role. -/
def SetsDefaults (role : TableRole) (t : Table) (s : String) : Prop :=
  s ∈ tableStatements role.keyword.text t

instance (role : TableRole) (t : Table) (s : String) : Decidable (SetsDefaults role t s) :=
  inferInstanceAs (Decidable (s ∈ tableStatements role.keyword.text t))

theorem setsDefaults_iff {role : TableRole} {t : Table} (ht : t.IsDot) {s : String} :
    SetsDefaults role t s ↔ t.entries ≠ [] ∧ s.toList = role.keyword.text.toList ++
      ' ' :: '[' :: (strip t.render.toList ++ [']', ';']) := by
  unfold SetsDefaults tableStatements
  have hsize : t.size = 0 ↔ t.entries = [] := List.length_eq_zero_iff
  by_cases hnil : t.entries = []
  · simp [hsize, hnil]
  · have hchars := ht.toList_statement role.keyword.text
    rw [if_neg hnil] at hchars
    rw [if_neg (hsize.not.2 hnil), List.mem_singleton, ← hchars, String.toList_inj]
    exact ⟨fun h => ⟨hnil, h⟩, fun h => h.2⟩

/-- A statement about a name sets defaults exactly if the name is the keyword and the attributes are
written alike. -/
theorem statement_setsDefaults_iff {t u : Table} (ht : t.IsDot) (hu : u.IsDot) {role : TableRole}
    {n : Name} : SetsDefaults role u (statement n.render t) ↔
      n = .ofKeyword role.keyword ∧ u.entries ≠ [] ∧ t.render = u.render := by
  rw [setsDefaults_iff hu, ht.toList_statement]
  constructor
  · rintro ⟨hne, h⟩
    by_cases hnil : t.entries = []
    · rw [if_pos hnil] at h
      exact absurd h (Name.append_ne_keyword (by simp))
    · rw [if_neg hnil] at h
      obtain ⟨hname, hrest⟩ := Name.eq_keyword_of_append h
      have hstrip := List.append_cancel_right (List.cons.inj hrest).2
      refine ⟨hname, hne, String.toList_inj.1 ?_⟩
      rw [(ht.strip_render hnil).1, (hu.strip_render hne).1, hstrip]
  · rintro ⟨rfl, hne, hrender⟩
    have hnil : t.entries ≠ [] := by
      intro hnil
      have hempty := ht.toList_render
      rw [hnil, List.flatMap_nil, hrender, (hu.strip_render hne).1] at hempty
      cases hempty
    refine ⟨hne, ?_⟩
    rw [if_neg hnil, hrender]
    rfl

/-- The statement of a table sets defaults of its own role only. -/
theorem SetsDefaults.role_eq {role own : TableRole} {t u : Table} (ht : t.IsDot) (hu : u.IsDot)
    {s : String} (hown : SetsDefaults own t s) (h : SetsDefaults role u s) : own = role := by
  have hs : s = statement (Name.ofKeyword own.keyword).render t := by
    unfold SetsDefaults tableStatements at hown
    split_ifs at hown
    · exact absurd hown List.not_mem_nil
    · exact List.mem_singleton.1 hown
  rw [hs] at h
  have hname := ((statement_setsDefaults_iff ht hu).1 h).1
  have htext : own.keyword.text = role.keyword.text := congrArg Name.render hname
  cases own <;> cases role <;> first | rfl | exact absurd htext (by decide)

/-- The statement of an edge sets no defaults: an arrow follows its first name, not a bracket. -/
theorem edge_not_setsDefaults {e : Edge} {name : Name} (htail : e.tail = name.render)
    (ht : e.attributes.IsDot) {u : Table} (hu : u.IsDot) (role : TableRole) (directed : Bool) :
    ¬ SetsDefaults role u (e.render directed) := by
  intro h
  have hchars := ((setsDefaults_iff hu).1 h).2
  obtain ⟨arrow, harrow⟩ : ∃ arrow,
      (if directed then " -> " else " -- ").toList = ' ' :: '-' :: arrow := by
    cases directed <;> exact ⟨_, rfl⟩
  rw [Edge.render, ht.toList_statement, htail, String.toList_append, String.toList_append, harrow,
    List.append_assoc, List.append_assoc] at hchars
  exact absurd (List.cons.inj (Name.eq_keyword_of_append hchars).2).1 (by decide)

/-- **The statement of a node sets defaults exactly if the node has the name of the keyword**, and
the attributes that are set.  All other statements of a block that do come from its tables. -/
theorem Reachable.defaults_of_node_iff {b c : Block} (hb : b.Reachable) (hc : c.Reachable)
    (role : TableRole) :
    (∀ n ∈ b.nodes, SetsDefaults role (role.get c) n.render ↔
      n.name = .ofKeyword role.keyword ∧ (role.get c).entries ≠ [] ∧
        n.attributes.render = (role.get c).render) ∧
    ∀ directed, ∀ s ∈ b.statements directed, SetsDefaults role (role.get c) s →
      SetsDefaults role (role.get b) s ∨
        ∃ n ∈ b.nodes, n.name = .ofKeyword role.keyword ∧ s = n.render := by
  have hu : (role.get c).IsDot := hc.tables_isDot _ (mem_tables.2 (.inl ⟨role, rfl⟩))
  have hown : ∀ own : TableRole, (own.get b).IsDot := fun own =>
    hb.tables_isDot _ (mem_tables.2 (.inl ⟨own, rfl⟩))
  have hnode : ∀ n ∈ b.nodes, SetsDefaults role (role.get c) n.render ↔
      n.name = .ofKeyword role.keyword ∧ (role.get c).entries ≠ [] ∧
        n.attributes.render = (role.get c).render := fun n hn =>
    statement_setsDefaults_iff (hb.tables_isDot _ (mem_tables.2 (.inr (.inl ⟨n, hn, rfl⟩)))) hu
  refine ⟨hnode, fun directed s hs h => ?_⟩
  have htable : ∀ own : TableRole, SetsDefaults own (own.get b) s →
      SetsDefaults role (role.get b) s := by
    intro own hmem
    obtain rfl := hmem.role_eq (hown own) hu h
    exact hmem
  unfold statements at hs
  rcases List.mem_append.1 hs with hs | hs
  · rcases List.mem_append.1 hs with hs | hs
    · left
      rcases List.mem_append.1 hs with hs | hs
      · rcases List.mem_append.1 hs with hs | hs
        · exact htable .attributes hs
        · exact htable .nodeDefaults hs
      · exact htable .edgeDefaults hs
    · obtain ⟨n, hn, rfl⟩ := List.mem_map.1 hs
      exact .inr ⟨n, hn, ((hnode n hn).1 h).1, rfl⟩
  · obtain ⟨e, he, rfl⟩ := List.mem_map.1 hs
    obtain ⟨name, -, htail, -⟩ := hb.edges_named e he
    have ht := hb.tables_isDot _ (mem_tables.2 (.inr (.inr ⟨e, he, rfl⟩)))
    exact absurd h (edge_not_setsDefaults htail ht hu role directed)

end Block

namespace GraphStore

/-- A graph with a default for its nodes, and with a node `node` that has the same attribute. -/
def defaultNodeCalls : List Call := [
  .create none (.raw (.text "styled")) .digraph,
  .addAttribute 0 (.own .nodeDefaults) (.dot .comment) (.value (.string "c")),
  .addNode 0 (.raw (.text "node")),
  .addAttribute 0 (.node "node") (.dot .comment) (.value (.string "c"))]

/-- The node of these calls. -/
def defaultNode : Node :=
  ⟨.ofKeyword .node, ⟨(Table.ofDot nodeAttributes).legal, [(.dot .comment, quoted "c")]⟩⟩

/-- The graph of these calls. -/
def defaultNodeBlock : Block :=
  { Block.empty (.id ⟨"styled", by decide⟩) .digraph with
    nodeDefaults := ⟨(Table.ofDot nodeAttributes).legal, [(.dot .comment, quoted "c")]⟩
    nodes := [defaultNode] }

set_option maxRecDepth 4000 in
theorem defaultNodeCalls_run : (run defaultNodeCalls).graphs = [⟨defaultNodeBlock, none, []⟩] :=
  rfl

theorem defaultNodeBlock_reachable : defaultNodeBlock.Reachable :=
  ((run_sound defaultNodeCalls).graph _ (by
    rw [defaultNodeCalls_run]
    exact List.mem_singleton_self _)).block

theorem defaultNode_setsDefaults : defaultNodeBlock.Reachable ∧
    Block.SetsDefaults .nodeDefaults defaultNodeBlock.nodeDefaults defaultNode.render := by
  have hiff := (defaultNodeBlock_reachable.defaults_of_node_iff defaultNodeBlock_reachable
    .nodeDefaults).1 defaultNode (List.mem_singleton_self _)
  exact ⟨defaultNodeBlock_reachable, hiff.2 ⟨rfl, List.cons_ne_nil _ _, rfl⟩⟩

/-- The statement of a node may set defaults. -/
theorem node_setsDefaults :
    ¬ ∀ (b c : Block), b.Reachable → c.Reachable → ∀ n ∈ b.nodes, ∀ role : TableRole,
      ¬ Block.SetsDefaults role (role.get c) n.render := by
  intro h
  refine h defaultNodeBlock defaultNodeBlock defaultNodeBlock_reachable
    defaultNodeBlock_reachable defaultNode (List.mem_singleton_self _) .nodeDefaults ?_
  decide

end GraphStore

end DotWriter
