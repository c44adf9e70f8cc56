import DotWriter.Graph.Multigraph
import DotWriter.Proofs.Document.Parser
import DotWriter.Proofs.Graph.DisplayName
import DotWriter.Proofs.Graph.Tables

/-!
# The document of a graph

What the document of a graph says, statement by statement, however it is laid out as text.

* `Block.subjects` : what a block gives attributes to, each with its table;
* `Graph.document` : **the document of a graph**, which is of the grammar;
* `Graph.HasTokens` : the names and texts of a graph are tokens.
-/

namespace DotWriter

/-- The keyword of a kind of graphs. -/
def GraphKind.opening (k : GraphKind) : Keyword :=
  if k.isSubgraph then .subgraph else if k.isDirected then .digraph else .graph

theorem GraphKind.opening_text (k : GraphKind) : k.opening.text = k.keyword := by
  unfold opening keyword
  split_ifs <;> rfl

theorem GraphKind.opening_spec (k : GraphKind) :
    k.opening = .graph ∨ k.opening = .digraph ∨ k.opening = .subgraph := by
  cases k <;> decide

/-- A kind that may be nested is not strict and has a keyword of its own. -/
theorem GraphKind.of_isSubgraph {k : GraphKind} (h : k.isSubgraph = true) :
    k.isStrict = false ∧ k.opening = .subgraph := by
  cases k <;> first | exact ⟨rfl, rfl⟩ | cases h

/-- The part of a statement before the attributes, as it is written. -/
def Subject.text : Subject → String
  | defaults role => role.text
  | node key => key
  | edge tail directed head => tail ++ (if directed then " -> " else " -- ") ++ head

namespace Block

/-- The attributes that a block gives to all graphs, nodes or edges, if there are any. -/
def defaultsOf (role : Keyword) (t : Table) : List (Subject × Table) :=
  if t.size = 0 then [] else [(.defaults role, t)]

/-- What a block gives attributes to, in the order of its statements, each with its table. -/
def subjects (b : Block) (directed : Bool) : List (Subject × Table) :=
  defaultsOf .graph b.attributes ++ defaultsOf .node b.nodeDefaults ++
    defaultsOf .edge b.edgeDefaults ++ b.nodes.map (fun n => (.node n.key, n.attributes)) ++
    b.edges.map fun e => (.edge e.tail directed e.head, e.attributes)

/-- What a block says itself. -/
def body (b : Block) (directed : Bool) : List Statement :=
  (b.subjects directed).map fun p => .attributed p.1 p.2.named

/-- The heading of a document. -/
def documentHeading (b : Block) : Heading := ⟨b.kind.isStrict, b.kind.opening, b.displayName⟩

/-- Names and stored texts are tokens, and names are no keywords. -/
structure HasTokens (b : Block) : Prop where
  name : IsName b.name.render
  nodes : ∀ n ∈ b.nodes, IsName n.key
  edges : ∀ e ∈ b.edges, IsName e.tail ∧ IsName e.head
  texts : ∀ t ∈ b.tables, ∀ e ∈ t.entries, IsToken e.2.toList

end Block

namespace Graph

mutual

/-- What a graph and its subgraphs say. -/
def body (directed : Bool) : Graph → List Statement
  | mk b gs => b.body directed ++ bodyAll directed gs

/-- Nested graphs as statements, in order. -/
def bodyAll (directed : Bool) : List Graph → List Statement
  | [] => []
  | g :: gs => .subgraph g.block.displayName (body directed g) :: bodyAll directed gs

end

/-- The document of a graph.  The outermost graph decides about the operator of all edges. -/
def document (g : Graph) : Document :=
  ⟨g.block.documentHeading, g.body g.block.kind.isDirected⟩

/-- In a graph and all of its subgraphs, names and stored texts are tokens. -/
inductive HasTokens : Graph → Prop
  | mk {b : Block} {gs : List Graph} (block : b.HasTokens) (subgraphs : ∀ g ∈ gs, HasTokens g) :
    HasTokens (mk b gs)

end Graph

/-! ### Subjects -/

namespace Block

variable {b : Block} {directed : Bool}

theorem tableStatements_eq (role : Keyword) (t : Table) :
    tableStatements role.text t = (defaultsOf role t).map fun p => statement p.1.text p.2 := by
  unfold tableStatements defaultsOf
  split_ifs <;> rfl

/-- The lines of a block are the statements about its subjects. -/
theorem statements_eq (b : Block) (directed : Bool) :
    b.statements directed = (b.subjects directed).map fun p => statement p.1.text p.2 := by
  have hgraph : tableStatements "graph" b.attributes = _ := tableStatements_eq .graph b.attributes
  have hnode : tableStatements "node" b.nodeDefaults = _ := tableStatements_eq .node b.nodeDefaults
  have hedge : tableStatements "edge" b.edgeDefaults = _ := tableStatements_eq .edge b.edgeDefaults
  have hnodes : Node.render = fun n => statement (Subject.node n.key).text n.attributes := by
    funext n
    rfl
  have hedges : (fun e : Edge => e.render directed) =
      fun e => statement (Subject.edge e.tail directed e.head).text e.attributes := by
    funext e
    rfl
  rw [statements, hgraph, hnode, hedge, hnodes, hedges]
  simp only [subjects, List.map_append, List.map_map, Function.comp_def]

theorem of_mem_defaultsOf {role : Keyword} {t : Table} {p : Subject × Table}
    (h : p ∈ defaultsOf role t) : p = (.defaults role, t) ∧ t.entries ≠ [] := by
  unfold defaultsOf at h
  split_ifs at h with hsize
  · exact absurd h List.not_mem_nil
  · refine ⟨List.mem_singleton.1 h, fun hnil => hsize ?_⟩
    rw [Table.size, hnil, List.length_nil]

/-- The subjects of a block, one kind after the other. -/
theorem of_mem_subjects {p : Subject × Table} (h : p ∈ b.subjects directed) :
    (∃ role t, p = (.defaults role, t) ∧ Statement.isRole role = true ∧ t.entries ≠ [] ∧
      t ∈ b.tables) ∨
    (∃ n ∈ b.nodes, p = (.node n.key, n.attributes)) ∨
    ∃ e ∈ b.edges, p = (.edge e.tail directed e.head, e.attributes) := by
  have hown : ∀ (role : Keyword) (own : TableRole), Statement.isRole role = true →
      p ∈ defaultsOf role (own.get b) → ∃ role t, p = (.defaults role, t) ∧
        Statement.isRole role = true ∧ t.entries ≠ [] ∧ t ∈ b.tables := by
    intro role own hrole hmem
    obtain ⟨hp, hne⟩ := of_mem_defaultsOf hmem
    exact ⟨role, own.get b, hp, hrole, hne, mem_tables.2 (.inl ⟨own, rfl⟩)⟩
  unfold subjects at h
  rcases List.mem_append.1 h with h | h
  · rcases List.mem_append.1 h with h | h
    · left
      rcases List.mem_append.1 h with h | h
      · rcases List.mem_append.1 h with h | h
        · exact hown .graph .attributes rfl h
        · exact hown .node .nodeDefaults rfl h
      · exact hown .edge .edgeDefaults rfl h
    · obtain ⟨n, hn, rfl⟩ := List.mem_map.1 h
      exact .inr (.inl ⟨n, hn, rfl⟩)
  · obtain ⟨e, he, rfl⟩ := List.mem_map.1 h
    exact .inr (.inr ⟨e, he, rfl⟩)

theorem table_mem_of_mem_subjects {p : Subject × Table} (h : p ∈ b.subjects directed) :
    p.2 ∈ b.tables := by
  rcases of_mem_subjects h with ⟨role, t, rfl, -, -, ht⟩ | ⟨n, hn, rfl⟩ | ⟨e, he, rfl⟩
  · exact ht
  · exact mem_tables.2 (.inr (.inl ⟨n, hn, rfl⟩))
  · exact mem_tables.2 (.inr (.inr ⟨e, he, rfl⟩))

/-- A block that declares nothing has no token but its name. -/
theorem HasTokens.empty {name : Name} (h : IsName name.render) (kind : GraphKind) :
    (Block.empty name kind).HasTokens := by
  refine ⟨h, fun n hn => absurd hn List.not_mem_nil, fun e he => absurd he List.not_mem_nil, ?_⟩
  intro t ht e he
  rcases mem_tables.1 ht with ⟨role, rfl⟩ | ⟨n, hn, -⟩ | ⟨f, hf, -⟩
  · cases role <;> exact absurd he List.not_mem_nil
  · exact absurd hn List.not_mem_nil
  · exact absurd hf List.not_mem_nil

theorem body_wellFormed (b : Block) (directed : Bool) :
    ∀ s ∈ b.body directed, s.WellFormed := by
  intro s hs
  obtain ⟨p, hp, rfl⟩ := List.mem_map.1 hs
  refine .attributed fun role hrole => ?_
  rcases of_mem_subjects hp with ⟨role', t, rfl, hr, hne, -⟩ | ⟨n, -, rfl⟩ | ⟨e, -, rfl⟩
  · cases hrole
    exact ⟨hr, fun hnil => hne (List.map_eq_nil_iff.1 hnil)⟩
  · cases hrole
  · cases hrole

end Block

/-! ### Names -/

theorem DotAttribute.mem_all (a : DotAttribute) : a ∈ all := by
  cases a <;> decide +kernel

/-- The names of attributes are identifiers and no keywords. -/
theorem DotAttribute.isName (a : DotAttribute) : IsName a.name := by
  have hall : ∀ a ∈ all, isAscii a.name = true ∧ isIdentifier (asciiChars a.name) = true ∧
      Keyword.ofWord? (asciiChars a.name) = none := by
    decide +kernel
  obtain ⟨hascii, hid, hword⟩ := hall a a.mem_all
  rw [← toList_eq_asciiChars hascii] at hid hword
  exact ⟨.identifier hid, hword⟩

/-- A text that brings its own delimiters is no keyword. -/
theorem IsDelimited.isName {s : String} (h : IsDelimited s) (ht : IsToken s.toList) : IsName s := by
  refine ⟨ht, ?_⟩
  rcases h with h | h <;> obtain ⟨cs, hcs⟩ := List.head?_eq_some_iff.1 h <;> rw [hcs]
  · exact Keyword.ofWord?_eq_none (by decide)
  · exact Keyword.ofWord?_eq_none (by decide)

namespace Name

theorem quoted_prefix_isName {s : String} (h : isQuotedBody (s.toList.flatMap quoteChar) = true) :
    IsName (quoted ("cluster_" ++ s)) := by
  have hchars : (quoted ("cluster_" ++ s)).toList =
      '"' :: (("cluster_".toList ++ s.toList.flatMap quoteChar) ++ ['"']) := by
    simp [quoted, quotedChars, quoteChar]
  refine IsDelimited.isName (.inl (by rw [hchars]; rfl)) ?_
  rw [hchars]
  refine .quoted ⟨_, rfl, ?_⟩
  rw [isQuotedBody_append (by simp), h]

/-- A name with the prefix of clusters is a token, if the name itself is one. -/
theorem prefixed_isName {n : Name} (h : IsName n.render) : IsName n.prefixed := by
  have hnumber : n.IsNumber → IsName n.prefixed := by
    intro hn
    have htext := isNumberText_render hn
    rw [prefixed_of_isNumber hn]
    refine quoted_prefix_isName ?_
    rw [flatMap_quoteChar_of_isNumberText htext, ← List.append_nil n.render.toList]
    refine isQuotedBody_append fun c hc => ?_
    constructor
    · rintro rfl
      exact absurd (htext _ hc) (by decide)
    · rintro rfl
      exact absurd (htext _ hc) (by decide)
  cases n with
  | id x =>
    have hchars : (id x).prefixed.toList = "cluster_".toList ++ x.name.toList := by
      simp [prefixed]
    constructor
    · rw [hchars]
      exact .identifier (isIdentifier_append (by decide) x.valid)
    · rw [hchars]
      exact Keyword.ofWord?_eq_none (by decide)
  | int n => exact hnumber trivial
  | double x => exact hnumber trivial
  | string s =>
    have hchars : (string s).render.toList = '"' :: (s.toList.flatMap quoteChar ++ ['"']) := by
      simp [render, quoted, quotedChars]
    have htoken := h.token
    rw [hchars] at htoken
    obtain ⟨body, hbody, hb⟩ := htoken.isQuoted
    rw [← List.append_cancel_right (List.cons.inj hbody).2] at hb
    exact quoted_prefix_isName hb

end Name

/-- The name that a document shows is a token, if the name itself is one. -/
theorem Block.displayName_isName {b : Block} (h : IsName b.name.render) : IsName b.displayName := by
  rw [displayName_eq]
  split_ifs
  · exact Name.prefixed_isName h
  · exact h

/-! ### The grammar -/

namespace Graph

mutual

theorem body_wellFormed (directed : Bool) (g : Graph) : ∀ s ∈ g.body directed, s.WellFormed := by
  cases g with
  | mk b gs =>
    rw [body]
    intro s hs
    rcases List.mem_append.1 hs with hs | hs
    · exact b.body_wellFormed directed s hs
    · exact bodyAll_wellFormed directed gs s hs

theorem bodyAll_wellFormed (directed : Bool) (gs : List Graph) :
    ∀ s ∈ bodyAll directed gs, s.WellFormed := by
  cases gs with
  | nil =>
    intro s hs
    exact absurd hs List.not_mem_nil
  | cons g gs =>
    rw [bodyAll]
    intro s hs
    rcases List.mem_cons.1 hs with rfl | hs
    · exact .subgraph (body_wellFormed directed g)
    · exact bodyAll_wellFormed directed gs s hs

end

/-- The document of a graph is of the grammar. -/
theorem document_wellFormed (g : Graph) : g.document.WellFormed :=
  ⟨g.block.kind.opening_spec, g.body_wellFormed _⟩

end Graph

end DotWriter
