import DotWriter.Proofs.Document.Tree
import DotWriter.Proofs.Graph.Run

/-!
# Documents that are parsed back

The text of a graph is read line by line: each line is read as lexemes, whatever its margin is, and
the lexemes of all lines are those of the document of the graph.

* `ReadsAs` : a text is read as lexemes, wherever it stands between two lexemes;
* `reads_statement` : a statement is read as its lexemes;
* `Graph.reads_lines` : so are the lines of a graph, by induction on the nesting;
* `GraphStore.parse_render` : **the text of a graph is parsed as its document**, for every graph of
  a store and every layout.
-/

namespace DotWriter

/-- Between two lexemes, reading the text adds the lexemes. -/
def ReadsAs (cs : List Char) (ls : List Lexeme) : Prop :=
  ∀ read, Reads Lexer.step ⟨read, .between⟩ cs ⟨read ++ ls, .between⟩

/-- The text begins with a character that ends a token without delimiters. -/
def Delimits (cs : List Char) : Prop := ∃ c ds, cs = c :: ds ∧ isBareChar c = false

theorem Delimits.cons {c : Char} (h : isBareChar c = false) (cs : List Char) : Delimits (c :: cs) :=
  ⟨c, cs, rfl, h⟩

/-! ### Parts of a line -/

namespace ReadsAs

variable {cs ds : List Char} {ls ms : List Lexeme}

theorem nil : ReadsAs [] [] := by
  intro read
  rw [List.append_nil]
  exact .nil

theorem append (hc : ReadsAs cs ls) (hd : ReadsAs ds ms) : ReadsAs (cs ++ ds) (ls ++ ms) := by
  intro read
  rw [← List.append_assoc]
  exact (hc read).append (hd (read ++ ls))

theorem separator {c : Char} (hc : Lexer.isSeparator c = true) (hcs : ReadsAs cs ls) :
    ReadsAs (c :: cs) ls := by
  intro read
  have hstep : Lexer.step ⟨read, .between⟩ c = some ⟨read, .between⟩ := by
    simp [Lexer.step, Lexer.begin, hc]
  exact .cons hstep (hcs read)

theorem mark {c : Char} {l : Lexeme}
    (h : ∀ read, Lexer.step ⟨read, .between⟩ c = some ⟨read ++ [l], .between⟩)
    (hcs : ReadsAs cs ls) : ReadsAs (c :: cs) (l :: ls) := by
  intro read
  have := hcs (read ++ [l])
  rw [List.append_assoc] at this
  exact .cons (h read) this

/-- A text that is read as one lexeme if a delimiter follows. -/
theorem delimited {l : Lexeme}
    (h : ∀ read c t, isBareChar c = false → Lexer.step ⟨read ++ [l], .between⟩ c = some t →
      Reads Lexer.step ⟨read, .between⟩ (cs ++ [c]) t)
    (hd : Delimits ds) (hds : ReadsAs ds ls) : ReadsAs (cs ++ ds) (l :: ls) := by
  intro read
  obtain ⟨c, rest, rfl, hc⟩ := hd
  have hrest := hds (read ++ [l])
  rw [List.append_assoc] at hrest
  -- the delimiter ends the lexeme and belongs to what follows
  obtain ⟨t, hstep, hrest⟩ := hrest.of_cons
  have hread := (h read c t hc hstep).append hrest
  rwa [List.append_assoc] at hread

theorem token {s : String} (h : IsName s) (hd : Delimits cs) (hcs : ReadsAs cs ls) :
    ReadsAs (s.toList ++ cs) (.token s :: ls) :=
  delimited (fun read _ _ hc ht => Lexer.reads_token read h hc ht) hd hcs

theorem keyword (k : Keyword) (hd : Delimits cs) (hcs : ReadsAs cs ls) :
    ReadsAs (k.text.toList ++ cs) (.keyword k :: ls) :=
  delimited (fun read _ _ hc ht => Lexer.reads_keyword read k hc ht) hd hcs

theorem operator (directed : Bool) (hcs : ReadsAs cs ls) :
    ReadsAs ('-' :: (if directed then '>' else '-') :: cs) (.operator directed :: ls) := by
  intro read
  have hrest := hcs (read ++ [.operator directed])
  rw [List.append_assoc] at hrest
  cases directed with
  | false => exact .cons rfl (.cons rfl hrest)
  | true => exact .cons rfl (.cons rfl hrest)

theorem margin (indent level : Nat) (hcs : ReadsAs cs ls) :
    ReadsAs ((Graph.margin indent level).toList ++ cs) ls := by
  rw [Graph.margin, String.toList_ofList]
  induction indent * level with
  | zero => exact hcs
  | succ n ih => exact separator rfl ih

/-- One attribute. -/
theorem item {name text : String} (hname : IsName name) (htext : IsName text) (hd : Delimits cs)
    (hcs : ReadsAs cs ls) :
    ReadsAs (name.toList ++ '=' :: (text.toList ++ cs)) (itemLexemes (name, text) ++ ls) :=
  token hname (.cons rfl _) (mark (fun _ => rfl) (token htext hd hcs))

theorem entries {es : List (AttributeId × String)} (hes : ∀ e ∈ es, IsName e.1.name ∧ IsName e.2)
    (hd : Delimits cs) (hcs : ReadsAs cs ls) :
    ReadsAs (es.flatMap entryChars ++ cs)
      ((es.map fun e => (e.1.name, e.2)).flatMap itemLexemes ++ ls) := by
  induction es with
  | nil => exact hcs
  | cons e es ih =>
    obtain ⟨⟨hname, htext⟩, hes⟩ := List.forall_mem_cons.1 hes
    -- after the text stands the blank of the next entry, or what follows the list
    have hdelimits : Delimits (es.flatMap entryChars ++ cs) := by
      cases es with
      | nil => exact hd
      | cons e es => exact .cons rfl _
    have hread := separator (c := ' ') rfl (item hname htext hdelimits (ih hes))
    simpa [entryChars] using hread

end ReadsAs

/-- The names in the part of a statement before the attributes are tokens. -/
def Subject.IsNamed : Subject → Prop
  | defaults _ => True
  | node key => IsName key
  | edge tail _ head => IsName tail ∧ IsName head

theorem ReadsAs.subject {s : Subject} (hs : s.IsNamed) {cs : List Char} {ls : List Lexeme}
    (hd : Delimits cs) (hcs : ReadsAs cs ls) : ReadsAs (s.text.toList ++ cs) (s.lexemes ++ ls) := by
  cases s with
  | defaults role => exact .keyword role hd hcs
  | node key => exact .token hs hd hcs
  | edge tail directed head =>
    have hhead : ReadsAs (head.toList ++ cs) (.token head :: ls) := .token hs.2 hd hcs
    have hread := ReadsAs.token hs.1 (.cons rfl _)
      (.separator (c := ' ') rfl (.operator directed (.separator (c := ' ') rfl hhead)))
    have hchars : (Subject.edge tail directed head).text.toList ++ cs = tail.toList ++ ' ' :: '-' ::
        (if directed then '>' else '-') :: ' ' :: (head.toList ++ cs) := by
      cases directed <;> simp [Subject.text]
    rw [hchars]
    exact hread

/-! ### Statements -/

/-- A blank in front of a text without blanks at its ends is taken off. -/
theorem strip_blank_cons {c d : Char} {cs front : List Char} (hc : isBlank c = false)
    (hd : isBlank d = false) (h : ' ' :: c :: cs = front ++ [d]) :
    strip (' ' :: c :: cs) = c :: cs := by
  have hfirst : (' ' :: c :: cs).dropWhile isBlank = c :: cs := by
    rw [List.dropWhile_cons_of_pos rfl, List.dropWhile_cons_of_neg (by simp [hc])]
  have hlast : (c :: cs).reverse.dropWhile isBlank = (c :: cs).reverse := by
    cases front with
    | nil => cases h
    | cons _ front =>
      have hback : c :: cs = front ++ [d] := (List.cons.inj h).2
      rw [hback, List.reverse_append, List.reverse_singleton, List.singleton_append,
        List.dropWhile_cons_of_neg (by simp [hd])]
  rw [strip, trim, hfirst, hlast, List.reverse_reverse]

/-- What is kept of entries without the blanks at both ends. -/
theorem strip_entries {e : AttributeId × String} {es : List (AttributeId × String)}
    (h : ∀ f ∈ e :: es, IsToken f.1.name.toList ∧ IsToken f.2.toList) :
    strip ((e :: es).flatMap entryChars) =
      e.1.name.toList ++ '=' :: (e.2.toList ++ es.flatMap entryChars) := by
  obtain ⟨c, rest, hname, hc⟩ := (h e List.mem_cons_self).1.exists_first
  have hfirst : (e :: es).flatMap entryChars =
      ' ' :: c :: (rest ++ '=' :: (e.2.toList ++ es.flatMap entryChars)) := by
    simp [entryChars, hname]
  -- the last character is that of the last text
  obtain ⟨front, d, hfront, hd⟩ : ∃ front d,
      (e :: es).flatMap entryChars = front ++ [d] ∧ isBlank d = false := by
    obtain ⟨init, last, hsplit⟩ := (List.eq_nil_or_concat' (e :: es)).resolve_left
      (List.cons_ne_nil e es)
    have hmem : last ∈ e :: es := hsplit ▸ List.mem_append_right init List.mem_cons_self
    obtain ⟨front, d, htext, hd⟩ := (h last hmem).2.exists_last
    refine ⟨init.flatMap entryChars ++ ' ' :: (last.1.name.toList ++ '=' :: front), d, ?_, hd⟩
    simp [hsplit, entryChars, htext]
  rw [hfirst] at hfront ⊢
  rw [strip_blank_cons hc hd hfront, hname, List.cons_append]

theorem statement_toList {t : Table} (ht : t.IsDot)
    (htokens : ∀ e ∈ t.entries, IsToken e.1.name.toList ∧ IsToken e.2.toList) (head : String) :
    (statement head t).toList = head.toList ++ match t.entries with
      | [] => [';']
      | e :: es => ' ' :: '[' :: (e.1.name.toList ++
          '=' :: (e.2.toList ++ (es.flatMap entryChars ++ [']', ';']))) := by
  have hrender := ht.toList_render
  unfold statement
  cases hes : t.entries with
  | nil =>
    rw [hes] at hrender
    simp [hrender, strip, trim]
  | cons e es =>
    rw [hes] at hrender htokens
    have hstrip := strip_entries htokens
    rw [← hrender] at hstrip
    simp [hstrip]

/-- A statement is read as its lexemes. -/
theorem reads_statement {s : Subject} (hs : s.IsNamed) {t : Table} (ht : t.IsDot)
    (htexts : ∀ e ∈ t.entries, IsToken e.2.toList) :
    ReadsAs (statement s.text t).toList (Statement.attributed s t.named).lexemes := by
  have hnames : ∀ e ∈ t.entries, IsName e.1.name ∧ IsName e.2 := by
    intro e he
    obtain ⟨a, ha⟩ := ht.exists_dot he
    refine ⟨?_, (ht.isDelimited he).isName (htexts e he)⟩
    rw [ha]
    exact a.isName
  rw [statement_toList ht fun e he => ⟨(hnames e he).1.token, htexts e he⟩, Statement.lexemes,
    List.append_assoc]
  have hend : ReadsAs [';'] [.semicolon] := .mark (fun _ => rfl) .nil
  cases hes : t.entries with
  | nil =>
    have hnamed : t.named = [] := by rw [Table.named, hes, List.map_nil]
    rw [hnamed]
    exact .subject hs (.cons rfl _) hend
  | cons e es =>
    rw [hes] at hnames
    obtain ⟨⟨hname, htext⟩, hrest⟩ := List.forall_mem_cons.1 hnames
    -- the first entry has lost its blank, the others are read as a list
    have hclose : ReadsAs [']', ';'] [.closeBracket, .semicolon] := .mark (fun _ => rfl) hend
    have hentries := ReadsAs.entries hrest (.cons rfl _) hclose
    have hdelimits : Delimits (es.flatMap entryChars ++ [']', ';']) := by
      cases es with
      | nil => exact .cons rfl _
      | cons e es => exact .cons rfl _
    have hread := ReadsAs.separator (c := ' ') rfl
      (.mark (c := '[') (fun _ => rfl) (.item hname htext hdelimits hentries))
    have hlexemes : itemsLexemes t.named ++ [.semicolon] = Lexeme.openBracket ::
        (itemLexemes (e.1.name, e.2) ++ ((es.map fun e => (e.1.name, e.2)).flatMap itemLexemes ++
          [.closeBracket, .semicolon])) := by
      simp [itemsLexemes, Table.named, hes]
    rw [hlexemes]
    exact .subject hs (.cons rfl _) hread

/-! ### Lines -/

/-- Every line is read as its part of the lexemes. -/
inductive ReadsLines : List String → List Lexeme → Prop
  | nil : ReadsLines [] []
  | cons {line : String} {lines : List String} {ls ms : List Lexeme}
    (h : ReadsAs line.toList ls) (hlines : ReadsLines lines ms) :
    ReadsLines (line :: lines) (ls ++ ms)

namespace ReadsLines

variable {line : String} {lines lines' : List String} {ls ms : List Lexeme}

theorem one (h : ReadsAs line.toList ls) : ReadsLines [line] ls := by
  have := cons h nil
  rwa [List.append_nil] at this

theorem append (h : ReadsLines lines ls) (h' : ReadsLines lines' ms) :
    ReadsLines (lines ++ lines') (ls ++ ms) := by
  induction h with
  | nil => exact h'
  | cons hline _ ih =>
    rw [List.append_assoc]
    exact .cons hline ih

/-- Lines are read one after the other, with line ends between them. -/
theorem intercalate (h : ReadsLines lines ls) :
    ReadsAs (String.intercalate "\n" lines).toList ls := by
  induction h with
  | nil => exact .nil
  | @cons line lines ls ms hline hlines ih =>
    cases lines with
    | nil =>
      cases hlines
      simpa using hline
    | cons next lines =>
      have hnext : ReadsAs ('\n' :: (String.intercalate "\n" (next :: lines)).toList) ms :=
        .separator rfl ih
      rw [String.toList_intercalate] at hnext ⊢
      simpa [List.intercalate_cons_cons] using hline.append hnext

end ReadsLines

/-- The lexemes of statements one after the other. -/
theorem Statement.lexemesAll_append (ss ts : List Statement) :
    lexemesAll (ss ++ ts) = lexemesAll ss ++ lexemesAll ts := by
  induction ss with
  | nil => rfl
  | cons s ss ih => rw [List.cons_append, lexemesAll, lexemesAll, ih, List.append_assoc]

namespace Block

variable {b : Block}

theorem HasTokens.isNamed (h : b.HasTokens) {directed : Bool} {p : Subject × Table}
    (hp : p ∈ b.subjects directed) : p.1.IsNamed := by
  rcases of_mem_subjects hp with ⟨role, t, rfl, -⟩ | ⟨n, hn, rfl⟩ | ⟨e, he, rfl⟩
  · trivial
  · exact h.nodes n hn
  · exact h.edges e he

/-- The lines of a block are read as what it says. -/
theorem reads_statements (hb : b.Reachable) (ht : b.HasTokens) (indent level : Nat)
    (directed : Bool) :
    ReadsLines ((b.statements directed).map (Graph.margin indent level ++ ·))
      (Statement.lexemesAll (b.body directed)) := by
  -- by induction on any list of subjects of the block
  have hlines : ∀ ps : List (Subject × Table), (∀ p ∈ ps, p ∈ b.subjects directed) →
      ReadsLines
        ((ps.map fun p => statement p.1.text p.2).map (Graph.margin indent level ++ ·))
        (Statement.lexemesAll (ps.map fun p => .attributed p.1 p.2.named)) := by
    intro ps hps
    induction ps with
    | nil => exact .nil
    | cons p ps ih =>
      obtain ⟨hp, hps⟩ := List.forall_mem_cons.1 hps
      have htable := table_mem_of_mem_subjects hp
      refine .cons ?_ (ih hps)
      rw [String.toList_append]
      exact .margin indent level
        (reads_statement (ht.isNamed hp) (hb.tables_isDot _ htable) (ht.texts _ htable))
  rw [statements_eq, body]
  exact hlines _ fun p hp => hp

/-- The line that opens a block is read as its heading. -/
theorem reads_heading (ht : b.HasTokens) :
    ReadsAs b.heading.toList b.documentHeading.lexemes := by
  -- from the end of the line to its beginning
  have hname : ReadsAs (b.displayName.toList ++ [' ', '\x7b'])
      [.token b.displayName, .openBrace] :=
    .token (displayName_isName ht.name) (.cons rfl _)
      (.separator rfl (.mark (fun _ => rfl) .nil))
  have hkeyword : ReadsAs (b.kind.keyword.toList ++ ' ' :: (b.displayName.toList ++ [' ', '\x7b']))
      [.keyword b.kind.opening, .token b.displayName, .openBrace] := by
    rw [← b.kind.opening_text]
    exact .keyword _ (.cons rfl _) (.separator rfl hname)
  have hchars : b.heading.toList = (if b.kind.isStrict then "strict " else "").toList ++
      (b.kind.keyword.toList ++ ' ' :: (b.displayName.toList ++ [' ', '\x7b'])) := by
    simp [heading]
  rw [hchars, documentHeading, Heading.lexemes]
  cases b.kind.isStrict with
  | false => exact hkeyword
  | true =>
    have hstrict := ReadsAs.keyword .strict (.cons rfl _) (.separator (c := ' ') rfl hkeyword)
    simpa [Keyword.text] using hstrict

end Block

/-! ### Graphs -/

namespace Graph

/-- A graph that may be nested is a statement of its own. -/
theorem subgraph_lexemes {g : Graph} (h : g.block.kind.isSubgraph = true) (directed : Bool) :
    (Statement.subgraph g.block.displayName (g.body directed)).lexemes =
      g.block.documentHeading.lexemes ++ Statement.lexemesAll (g.body directed) ++
        [.closeBrace] := by
  obtain ⟨hstrict, hopening⟩ := GraphKind.of_isSubgraph h
  rw [Statement.lexemes, Heading.lexemes, Block.documentHeading, hstrict, hopening]
  rfl

mutual

/-- The lines of a graph are read as its heading and what it says. -/
theorem reads_lines (indent level : Nat) (directed : Bool) {g : Graph} (hg : g.Built)
    (ht : g.HasTokens) :
    ReadsLines (g.lines indent directed level)
      (g.block.documentHeading.lexemes ++ Statement.lexemesAll (g.body directed) ++
        [.closeBrace]) := by
  cases hg with
  | @mk b gs hblock hnested hbuilt =>
    cases ht with
    | mk htokens hsubgraphs =>
      rw [lines, body, block, Statement.lexemesAll_append, ← List.append_assoc]
      have hhead : ReadsAs (margin indent level ++ b.heading).toList b.documentHeading.lexemes := by
        rw [String.toList_append]
        exact .margin indent level (Block.reads_heading htokens)
      have hclose : ReadsAs (margin indent level ++ "\x7d").toList [.closeBrace] := by
        rw [String.toList_append]
        exact .margin indent level (.mark (fun _ => rfl) .nil)
      exact ((ReadsLines.cons hhead
        (b.reads_statements hblock htokens indent (level + 1) directed)).append
          (reads_linesAll indent (level + 1) directed hnested hbuilt hsubgraphs)).append
            (.one hclose)

/-- The lines of nested graphs are read as statements. -/
theorem reads_linesAll (indent level : Nat) (directed : Bool) {gs : List Graph}
    (hnested : ∀ g ∈ gs, g.block.kind.isSubgraph = true) (hbuilt : ∀ g ∈ gs, g.Built)
    (ht : ∀ g ∈ gs, g.HasTokens) :
    ReadsLines (linesAll indent directed level gs)
      (Statement.lexemesAll (bodyAll directed gs)) := by
  cases gs with
  | nil => exact .nil
  | cons g gs =>
    obtain ⟨hn, hnested⟩ := List.forall_mem_cons.1 hnested
    obtain ⟨hb, hbuilt⟩ := List.forall_mem_cons.1 hbuilt
    obtain ⟨hg, ht⟩ := List.forall_mem_cons.1 ht
    rw [linesAll, bodyAll, Statement.lexemesAll, subgraph_lexemes hn]
    exact (reads_lines indent level directed hb hg).append
      (reads_linesAll indent level directed hnested hbuilt ht)

end

theorem reads_render {g : Graph} (hg : g.Built) (ht : g.HasTokens) (config : RenderConfig) :
    ReadsAs (g.render config).toList g.document.lexemes := by
  have hlines := (reads_lines config.indent 0 g.block.kind.isDirected hg ht).intercalate
  have hend : ReadsAs (if config.trailingNewline.isTruthy then "\n" else "").toList [] := by
    split_ifs
    · exact .separator rfl .nil
    · exact .nil
  rw [render, String.toList_append, ← List.append_nil g.document.lexemes]
  exact hlines.append hend

/-- The text of a graph that was built is parsed as its document. -/
theorem parseDocument_render {g : Graph} (hg : g.Built) (ht : g.HasTokens) (config : RenderConfig) :
    parseDocument (g.render config) = some g.document := by
  have hread : (g.render config).toList.foldlM Lexer.step ⟨[], .between⟩ =
      some ⟨g.document.lexemes, .between⟩ := reads_render hg ht config []
  have hparse := Document.parse_lexemes g.document_wellFormed
  rw [parseDocument, hread]
  exact hparse

end Graph

namespace GraphStore

/-- **The text of a graph is parsed as its document**, whatever was done to the store before and
however the document is laid out, if names and stored texts are tokens. -/
theorem parse_render (calls : List Call) {depth : Nat} {id : GraphId} {g : Graph}
    (hg : (run calls).treeTo depth id = some g) (ht : g.HasTokens) (config : RenderConfig) :
    parseDocument (g.render config) = some g.document :=
  Graph.parseDocument_render ((run_sound calls).built hg) ht config

/-- A graph with an edge and a cluster, and with marks of the grammar in its texts. -/
def markedCalls : List Call := [
  .create none (.raw (.text "G")) .strictDigraph,
  .addAttribute 0 (.own .attributes) (.dot .comment) (.value (.string "a -> \x7b")),
  .addEdge 0 (.named (.raw (.text "a"))) (.named (.value (.string "b;"))),
  .createSubgraph 0 (.raw (.text "sub")) true]

/-- The graph after these calls. -/
def markedGraph : Graph :=
  .mk ⟨.id ⟨"G", by decide⟩, .strictDigraph,
      ⟨union [GraphKind.strictDigraph.legal], [(.dot .comment, quoted "a -> \x7b")]⟩,
      Table.ofDot nodeAttributes, Table.ofDot edgeAttributes,
      [.ofName (.id ⟨"a", by decide⟩), .ofName (.string "b;")], [.between "a" (quoted "b;")]⟩
    [.empty (.id ⟨"sub", by decide⟩) .clusterSubgraph]

set_option maxRecDepth 4000 in
theorem markedCalls_tree : (run markedCalls).treeTo 2 0 = some markedGraph := by
  rfl

theorem markedGraph_hasTokens : markedGraph.HasTokens := by
  have ha : IsName "a" := ⟨.identifier (by decide), by decide⟩
  have hb : IsName (quoted "b;") := ⟨.quoted ⟨"b;".toList, by decide, by decide⟩, by decide⟩
  have htext : IsToken (quoted "a -> \x7b").toList :=
    .quoted ⟨"a -> \x7b".toList, by decide, by decide⟩
  have hsub : (Block.empty (.id ⟨"sub", by decide⟩) .clusterSubgraph).HasTokens :=
    .empty ⟨.identifier (by decide), by decide⟩ _
  refine .mk ⟨⟨.identifier (by decide), by decide⟩, ?_, ?_, ?_⟩ ?_
  · intro n hn
    rcases List.mem_cons.1 hn with rfl | hn
    · exact ha
    · rw [List.mem_singleton.1 hn]
      exact hb
  · intro e he
    rw [List.mem_singleton.1 he]
    exact ⟨ha, hb⟩
  · intro t ht e he
    simp only [Block.tables, List.mem_append, List.mem_cons, List.mem_nil_iff, or_false,
      List.map_cons, List.map_nil] at ht
    rcases ht with ((rfl | rfl | rfl) | rfl | rfl) | rfl
    · rw [List.mem_singleton.1 he]
      exact htext
    all_goals exact absurd he List.not_mem_nil
  · intro g hg
    rw [List.mem_singleton.1 hg]
    exact .mk hsub fun g hg => absurd hg List.not_mem_nil

theorem markedGraph_parsed : markedGraph.HasTokens ∧
    ∀ config, parseDocument (markedGraph.render config) = some markedGraph.document :=
  ⟨markedGraph_hasTokens, parse_render markedCalls markedCalls_tree markedGraph_hasTokens⟩

end GraphStore

end DotWriter
