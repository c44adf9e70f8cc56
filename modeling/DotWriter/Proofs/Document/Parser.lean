import DotWriter.Proofs.Document.Lexer

/-!
# The statements of a document

`Document` is a document as its grammar has it: a heading, and statements that give attributes to
all graphs, nodes or edges, to one node or to one edge, or that nest a subgraph.

* `Document.lexemes` : the document as a list of lexemes;
* `Parser.step` : a parser that takes one lexeme at a time and keeps the subgraphs that are open;
* `Document.parse_lexemes` : **the lexemes of a document are parsed as that document**.
-/

namespace DotWriter

/-- What a statement gives attributes to. -/
inductive Subject
  /-- All graphs, nodes or edges. -/
  | defaults (role : Keyword)
  | node (key : String)
  | edge (tail : String) (directed : Bool) (head : String)
deriving DecidableEq

/-- The statements of a document. -/
inductive Statement
  | attributed (subject : Subject) (items : List (String × String))
  | subgraph (name : String) (body : List Statement)

/-- The kinds of documents. -/
structure Heading where
  strict : Bool
  keyword : Keyword
  name : String
deriving DecidableEq

/-- A document. -/
structure Document where
  heading : Heading
  body : List Statement

/-! ### Lexemes -/

/-- An attribute. -/
def itemLexemes (item : String × String) : List Lexeme :=
  [.token item.1, .equals, .token item.2]

/-- A list of attributes in brackets, unless it is empty. -/
def itemsLexemes (items : List (String × String)) : List Lexeme :=
  if items = [] then [] else .openBracket :: (items.flatMap itemLexemes ++ [.closeBracket])

namespace Subject

/-- The part of a statement before the attributes. -/
def lexemes : Subject → List Lexeme
  | defaults role => [.keyword role]
  | node key => [.token key]
  | edge tail directed head => [.token tail, .operator directed, .token head]

/-- Whether the statement must have attributes. -/
def needsItems : Subject → Bool
  | defaults _ => true
  | _ => false

end Subject

namespace Statement

mutual

/-- A statement as lexemes. -/
def lexemes : Statement → List Lexeme
  | attributed subject items => subject.lexemes ++ itemsLexemes items ++ [.semicolon]
  | subgraph name body =>
    [.keyword .subgraph, .token name, .openBrace] ++ lexemesAll body ++ [.closeBrace]

/-- Statements as lexemes. -/
def lexemesAll : List Statement → List Lexeme
  | [] => []
  | s :: ss => lexemes s ++ lexemesAll ss

end

/-- The keywords that attributes for all graphs, nodes or edges begin with. -/
def isRole : Keyword → Bool
  | .graph | .node | .edge => true
  | _ => false

/-- A statement of the grammar. -/
inductive WellFormed : Statement → Prop
  | attributed {subject : Subject} {items : List (String × String)}
    (hrole : ∀ role, subject = .defaults role → isRole role = true ∧ items ≠ []) :
    WellFormed (attributed subject items)
  | subgraph {name : String} {body : List Statement} (hbody : ∀ s ∈ body, WellFormed s) :
    WellFormed (subgraph name body)

end Statement

namespace Heading

/-- A heading as lexemes. -/
def lexemes (h : Heading) : List Lexeme :=
  (if h.strict then [.keyword .strict] else []) ++ [.keyword h.keyword, .token h.name, .openBrace]

end Heading

/-- A document as lexemes. -/
def Document.lexemes (d : Document) : List Lexeme :=
  d.heading.lexemes ++ Statement.lexemesAll d.body ++ [.closeBrace]

/-! ### Parsing -/

/-- What a parser expects. -/
inductive ParseMode
  /-- The keyword of the document. -/
  | kind (strict : Bool)
  /-- The name of the document. -/
  | name (strict : Bool) (keyword : Keyword)
  /-- The brace before the body of the document. -/
  | brace (h : Heading)
  /-- A statement, or the end of a body. -/
  | statement (h : Heading)
  /-- The name of a subgraph. -/
  | subgraphName (h : Heading)
  /-- The brace before the body of a subgraph. -/
  | subgraphBrace (h : Heading) (name : String)
  /-- The head of an edge. -/
  | edgeHead (h : Heading) (tail : String) (directed : Bool)
  /-- Attributes, or the end of the statement, or after a token an operator. -/
  | subject (h : Heading) (s : Subject)
  /-- The name of an attribute, or the end of the attributes. -/
  | item (h : Heading) (s : Subject) (items : List (String × String))
  /-- The sign after the name of an attribute. -/
  | sign (h : Heading) (s : Subject) (items : List (String × String)) (name : String)
  /-- The value of an attribute. -/
  | value (h : Heading) (s : Subject) (items : List (String × String)) (name : String)
  /-- The semicolon after the attributes. -/
  | semicolon (h : Heading) (s : Subject) (items : List (String × String))
  /-- Nothing any more. -/
  | done (h : Heading)

/-- A parser: the names of the subgraphs that are open, each with the statements before it,
innermost first, the statements that have been read in the first of them, and what is expected. -/
structure Parser where
  outer : List (String × List Statement)
  body : List Statement
  mode : ParseMode

namespace Parser

/-- The parser before the first lexeme. -/
def start : Parser := ⟨[], [], .kind false⟩

/-- Adds a statement. -/
def add (p : Parser) (h : Heading) (s : Statement) : Parser :=
  { p with body := p.body ++ [s], mode := .statement h }

/-- Reads the first lexeme of a statement, or the end of a body. -/
def begin (p : Parser) (h : Heading) : Lexeme → Option Parser
  | .keyword .subgraph => some { p with mode := .subgraphName h }
  | .keyword k =>
    if Statement.isRole k then some { p with mode := .subject h (.defaults k) } else none
  | .token key => some { p with mode := .subject h (.node key) }
  | .closeBrace =>
    match p.outer with
    | [] => some { p with mode := .done h }
    | (name, before) :: outer =>
      some ⟨outer, before ++ [.subgraph name p.body], .statement h⟩
  | _ => none

/-- Reads one lexeme. -/
def step (p : Parser) (l : Lexeme) : Option Parser :=
  match p.mode, l with
  | .kind false, .keyword .strict => some { p with mode := .kind true }
  | .kind strict, .keyword k =>
    if k = .graph ∨ k = .digraph ∨ k = .subgraph then some { p with mode := .name strict k }
    else none
  | .name strict k, .token name => some { p with mode := .brace ⟨strict, k, name⟩ }
  | .brace h, .openBrace => some { p with mode := .statement h }
  | .statement h, l => p.begin h l
  | .subgraphName h, .token name => some { p with mode := .subgraphBrace h name }
  | .subgraphBrace h name, .openBrace => some ⟨(name, p.body) :: p.outer, [], .statement h⟩
  | .subject h (.node tail), .operator directed =>
    some { p with mode := .edgeHead h tail directed }
  | .edgeHead h tail directed, .token head =>
    some { p with mode := .subject h (.edge tail directed head) }
  | .subject h s, .openBracket => some { p with mode := .item h s [] }
  | .subject h s, .semicolon =>
    if s.needsItems then none else some (p.add h (.attributed s []))
  | .item h s items, .token name => some { p with mode := .sign h s items name }
  | .item h s items, .closeBracket => some { p with mode := .semicolon h s items }
  | .sign h s items name, .equals => some { p with mode := .value h s items name }
  | .value h s items name, .token text =>
    some { p with mode := .item h s (items ++ [(name, text)]) }
  | .semicolon h s items, .semicolon => some (p.add h (.attributed s items))
  | _, _ => none

/-- The document that has been read, if nothing is missing. -/
def finish? (p : Parser) : Option Document :=
  match p.mode with
  | .done h => some ⟨h, p.body⟩
  | _ => none

end Parser

/-- Parses a document. -/
def parseDocument (text : String) : Option Document := do
  let lexer ← text.toList.foldlM Lexer.step ⟨[], .between⟩
  let parser ← (← lexer.finish?).foldlM Parser.step Parser.start
  parser.finish?

/-! ### Parsing lexemes -/

namespace Parser

variable {outer : List (String × List Statement)} {body : List Statement} {h : Heading}

theorem reads_items (s : Subject) (items before : List (String × String)) :
    Reads step ⟨outer, body, .item h s before⟩ (items.flatMap itemLexemes)
      ⟨outer, body, .item h s (before ++ items)⟩ := by
  induction items generalizing before with
  | nil => simpa using Reads.nil
  | cons item items ih =>
    have := ih (before ++ [item])
    rw [List.append_assoc] at this
    exact .cons rfl (.cons rfl (.cons rfl this))

/-- The attributes of a statement, up to its end. -/
theorem reads_rest (s : Subject) {items : List (String × String)}
    (hitems : s.needsItems = true → items ≠ []) :
    Reads step ⟨outer, body, .subject h s⟩ (itemsLexemes items ++ [.semicolon])
      ⟨outer, body ++ [.attributed s items], .statement h⟩ := by
  have hopen : step ⟨outer, body, .subject h s⟩ .openBracket =
      some ⟨outer, body, .item h s []⟩ := by
    cases s <;> rfl
  unfold itemsLexemes
  split_ifs with hnil
  · have hneeds : s.needsItems = false := by
      cases hs : s.needsItems with
      | false => rfl
      | true => exact absurd hnil (hitems hs)
    subst hnil
    refine .one ?_
    cases s with
    | defaults role => cases hneeds
    | node key => rfl
    | edge tail directed head => rfl
  · have hread : Reads step ⟨outer, body, .item h s []⟩ _ ⟨outer, body, .item h s items⟩ :=
      reads_items s items []
    exact (Reads.cons hopen (hread.append (.one rfl))).append (.one rfl)

theorem reads_subject {s : Subject}
    (hrole : ∀ role, s = .defaults role → Statement.isRole role = true) :
    Reads step ⟨outer, body, .statement h⟩ s.lexemes ⟨outer, body, .subject h s⟩ := by
  cases s with
  | defaults role =>
    refine .one ?_
    have hr := hrole role rfl
    cases role with
    | strict => cases hr
    | digraph => cases hr
    | subgraph => cases hr
    | graph => rfl
    | node => rfl
    | edge => rfl
  | node key => exact .one rfl
  | edge tail directed head => exact .cons rfl (.cons rfl (.one rfl))

mutual

/-- The lexemes of a statement are parsed as that statement. -/
theorem reads_statement (outer : List (String × List Statement)) (body : List Statement)
    {s : Statement} (hs : s.WellFormed) :
    Reads step ⟨outer, body, .statement h⟩ s.lexemes ⟨outer, body ++ [s], .statement h⟩ := by
  cases hs with
  | @attributed subject items hrole =>
    rw [Statement.lexemes, List.append_assoc]
    refine (reads_subject fun role hr => (hrole role hr).1).append (reads_rest subject ?_)
    intro hneeds
    cases subject with
    | defaults role => exact (hrole role rfl).2
    | node key => cases hneeds
    | edge tail directed head => cases hneeds
  | @subgraph name inner hinner =>
    rw [Statement.lexemes]
    -- the name and the statements before it wait until the body is complete
    have hread := reads_statements ((name, body) :: outer) [] hinner
    exact (Reads.append (.cons rfl (.cons rfl (.one rfl))) hread).append (.one rfl)

theorem reads_statements (outer : List (String × List Statement)) (body : List Statement)
    {ss : List Statement} (hss : ∀ s ∈ ss, s.WellFormed) :
    Reads step ⟨outer, body, .statement h⟩ (Statement.lexemesAll ss)
      ⟨outer, body ++ ss, .statement h⟩ := by
  cases ss with
  | nil => simpa [Statement.lexemesAll] using Reads.nil
  | cons s ss =>
    obtain ⟨hs, hss⟩ := List.forall_mem_cons.1 hss
    have hrest := reads_statements outer (body ++ [s]) hss
    rw [List.append_assoc] at hrest
    exact (reads_statement outer body hs).append hrest

end

end Parser

/-- A document of the grammar. -/
structure Document.WellFormed (d : Document) : Prop where
  keyword : d.heading.keyword = .graph ∨ d.heading.keyword = .digraph ∨
    d.heading.keyword = .subgraph
  body : ∀ s ∈ d.body, s.WellFormed

theorem Heading.reads_lexemes {h : Heading}
    (hk : h.keyword = .graph ∨ h.keyword = .digraph ∨ h.keyword = .subgraph) :
    Reads Parser.step Parser.start h.lexemes ⟨[], [], .statement h⟩ := by
  obtain ⟨strict, keyword, name⟩ := h
  cases strict <;> rcases hk with hk | hk | hk <;> cases hk <;> rfl

/-- **The lexemes of a document are parsed as that document.** -/
theorem Document.parse_lexemes {d : Document} (hd : d.WellFormed) :
    (d.lexemes.foldlM Parser.step Parser.start).bind Parser.finish? = some d := by
  have hread := (Heading.reads_lexemes hd.keyword).append
    (Parser.reads_statements (h := d.heading) [] [] hd.body)
  have hfold : d.lexemes.foldlM Parser.step Parser.start =
      some ⟨[], d.body, .done d.heading⟩ := hread.append (.one rfl)
  rw [hfold]
  rfl

end DotWriter
