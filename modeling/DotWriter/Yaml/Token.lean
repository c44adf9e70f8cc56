import DotWriter.Yaml.BlockText
import DotWriter.Yaml.Flow

/-!
# Tokens of a text

Most of the structure of a YAML text is in its layout.  `tokens?` turns a text into tokens in which
collections in block style have a beginning and an end, and keys and values are marked.

* `Layout` is what is known while a text is read: the tokens so far, the indentation of the open
  collections, and where a key may have begun;
* a colon makes a key of what stands before it on the same line, and a key or a hyphen that is
  indented more deeply than the open collections begins a new one;
* a token that is indented less deeply ends collections.
-/

namespace DotWriter.Yaml

/-- The tokens. -/
inductive Token
  | documentStart | documentEnd
  | listStart | mapStart | blockEnd
  | flowListStart | flowListEnd | flowMapStart | flowMapEnd
  | item | comma | key | value
  | anchor (name : List Char)
  | alias (name : List Char)
  | scalar (plain : Bool) (text : List Char)
deriving DecidableEq

/-- Where a key may have begun. -/
structure KeyStart where
  /-- The tokens before it, last one first. -/
  before : List Token
  /-- Whether nothing but a key may stand there. -/
  required : Bool
  place : Placed

/-- What is known while a text is read. -/
structure Layout where
  /-- The tokens so far, last one first. -/
  tokens : List Token
  /-- The columns of the open collections in block style, innermost first. -/
  columns : List Nat
  /-- For each open collection in flow style, innermost first, where a key may have begun. -/
  flow : List (Option KeyStart)
  /-- Where a key may have begun outside of collections in flow style. -/
  outer : Option KeyStart
  /-- Whether a key may begin. -/
  keyAllowed : Bool

namespace Layout

/-- The layout of nothing. -/
def empty : Layout := ⟨[], [], [], none, true⟩

/-- Whether a collection in flow style is open. -/
def inFlow (l : Layout) : Bool := !l.flow.isEmpty

/-- The first column that lies within the innermost collection in block style. -/
def inside (l : Layout) : Nat :=
  match l.columns with
  | [] => 0
  | column :: _ => column + 1

/-- Whether a column is that of the innermost collection in block style. -/
def isAligned (l : Layout) (column : Nat) : Bool := l.columns.head? == some column

/-- Appends a token. -/
def push (l : Layout) (t : Token) : Layout := { l with tokens := t :: l.tokens }

/-- Where a key may have begun in the innermost collection. -/
def keyStart (l : Layout) : Option KeyStart :=
  match l.flow with
  | [] => l.outer
  | start :: _ => start

/-- Replaces where a key may have begun in the innermost collection. -/
def setKeyStart (l : Layout) (start : Option KeyStart) : Layout :=
  match l.flow with
  | [] => { l with outer := start }
  | _ :: rest => { l with flow := start :: rest }

/-- No key began in the innermost collection, which is wrong if one was required. -/
def dropKey? (l : Layout) : Option Layout :=
  if l.keyStart.any KeyStart.required then none else some (l.setKeyStart none)

/-- A key may begin here. -/
def startKey? (l : Layout) (p : Placed) : Option Layout :=
  if l.keyAllowed then do
    let l ← l.dropKey?
    return l.setKeyStart (some ⟨l.tokens, !l.inFlow && l.isAligned p.column, p⟩)
  else some l

/-- Whether what may be a key has become too long: it goes over a line end, or has more than 1024
characters. -/
def isTooLong (here : Placed) (start : KeyStart) : Bool :=
  start.place.line != here.line || 1024 < here.offset - start.place.offset

/-- Forgets what is too long for a key, which is wrong if one was required. -/
def forgetKeys? (l : Layout) (here : Placed) : Option Layout :=
  if l.outer.any fun start => start.required && isTooLong here start then none
  else
    let keep (start : Option KeyStart) := start.filter fun start => !isTooLong here start
    some { l with flow := l.flow.map keep, outer := keep l.outer }

/-- Ends the collections in block style for which `ended` holds of their columns. -/
def close (l : Layout) (ended : Nat → Bool) : Layout :=
  if l.inFlow then l
  else
    { l with
      tokens := (l.columns.takeWhile ended).map (fun _ => .blockEnd) ++ l.tokens
      columns := l.columns.dropWhile ended }

/-- Whether a column begins a new collection in block style. -/
def isDeeper (l : Layout) (column : Nat) : Bool :=
  match l.columns with
  | [] => true
  | innermost :: _ => innermost < column

/-! ### Reading a token -/

/-- A layout, and what is left of the text. -/
abbrev Step := Option (Layout × List Placed)

/-- A mark between documents. -/
def separator (l : Layout) (t : Token) (rest : List Placed) : Step := do
  let l ← (l.close fun _ => true).dropKey?
  return ({ l with keyAllowed := false }.push t, rest.drop 2)

/-- The beginning of a collection in flow style. -/
def flowStart (l : Layout) (t : Token) (p : Placed) (rest : List Placed) : Step := do
  let l ← l.startKey? p
  return ({ l with flow := none :: l.flow, keyAllowed := true }.push t, rest)

/-- The end of a collection in flow style. -/
def flowEnd (l : Layout) (t : Token) (rest : List Placed) : Step :=
  match l.flow with
  | [] => none
  | _ :: outer => some ({ l with flow := outer, keyAllowed := false }.push t, rest)

/-- A comma between the items of a collection in flow style. -/
def comma (l : Layout) (rest : List Placed) : Step := do
  let l ← l.dropKey?
  return ({ l with keyAllowed := true }.push .comma, rest)

/-- The hyphen before an item of a list in block style. -/
def item (l : Layout) (p : Placed) (rest : List Placed) : Step := do
  if l.inFlow || !l.keyAllowed then none
  let l := if l.isDeeper p.column then
      { l with columns := p.column :: l.columns }.push .listStart
    else l
  let l ← l.dropKey?
  return (l.push .item, rest)

/-- The colon after a key. -/
def value (l : Layout) (rest : List Placed) : Step := do
  let start ← l.keyStart
  let after := l.tokens.take (l.tokens.length - start.before.length)
  let deeper := !l.inFlow && l.isDeeper start.place.column
  let before := if deeper then .mapStart :: start.before else start.before
  let l := { l.setKeyStart none with
    tokens := .value :: after ++ .key :: before
    columns := if deeper then start.place.column :: l.columns else l.columns
    keyAllowed := false }
  return (l, rest)

/-- The characters of names of anchors. -/
def isAnchorChar (c : Char) : Bool := c.isAlphanum || c == '-' || c == '_'

/-- The name of an anchor or an alias. -/
def name (l : Layout) (token : List Char → Token) (p : Placed) (rest : List Placed) : Step := do
  let l ← l.startKey? p
  let name := (rest.takeWhile fun p => isAnchorChar p.char).map Placed.char
  let rest := rest.dropWhile fun p => isAnchorChar p.char
  let ends := endsWord rest || rest.head?.any fun p => "?:,]\x7d%@\x60".toList.contains p.char
  if name.isEmpty || !ends then none
  return ({ l with keyAllowed := false }.push (token name), rest)

/-- A scalar on lines of its own. -/
def block (l : Layout) (folded : Bool) (rest : List Placed) : Step := do
  let l ← l.dropKey?
  let (text, rest) ← blockScalar? folded (max l.inside 1) rest
  return ({ l with keyAllowed := true }.push (.scalar false text), rest)

/-- A scalar between quotes. -/
def quoted (l : Layout) (p : Placed) (scalar : Quoted) : Step := do
  let l ← l.startKey? p
  let (text, rest) ← scalar
  return ({ l with keyAllowed := false }.push (.scalar false text), rest)

/-- A scalar without quotes. -/
def plain (l : Layout) (p : Placed) (cs : List Placed) : Step := do
  let l ← l.startKey? p
  let scalar := plainScalar l.inFlow l.inside cs
  return ({ l with keyAllowed := scalar.newLine }.push (.scalar true scalar.text), scalar.rest)

/-- Whether a plain scalar may begin with a character. -/
def startsPlain (l : Layout) (c : Char) (rest : List Placed) : Bool :=
  !"-?:,[]\x7b\x7d#&*!|>'\"%@\x60\t".toList.contains c ||
    (!endsWord rest && (c == '-' || (!l.inFlow && (c == '?' || c == ':'))))

/-- Reads one token, which begins at the given character. -/
def step (l : Layout) (p : Placed) (rest : List Placed) : Step :=
  let first := p.column == 0
  let ends := l.inFlow || endsWord rest
  if first && p.char == '%' then none
  else if first && isSeparator '-' (p :: rest) then l.separator .documentStart rest
  else if first && isSeparator '.' (p :: rest) then l.separator .documentEnd rest
  else match p.char with
    | '[' => l.flowStart .flowListStart p rest
    | '\x7b' => l.flowStart .flowMapStart p rest
    | ']' => do (← l.dropKey?).flowEnd .flowListEnd rest
    | '\x7d' => do (← l.dropKey?).flowEnd .flowMapEnd rest
    | ',' => l.comma rest
    | '*' => l.name .alias p rest
    | '&' => l.name .anchor p rest
    | '\'' => l.quoted p (singleQuoted? rest)
    | '"' => l.quoted p (doubleQuoted? rest)
    | c =>
      if c == '-' && endsWord rest then l.item p rest
      else if c == '?' && ends then none
      else if c == ':' && ends then l.value rest
      else if c == '|' && !l.inFlow then l.block false rest
      else if c == '>' && !l.inFlow then l.block true rest
      else if l.startsPlain c rest then l.plain p (p :: rest)
      else none

/-- Skips blanks, comments and line ends; tells whether there were line ends. -/
def skip (comment newLine : Bool) : List Placed → Bool × List Placed
  | [] => (newLine, [])
  | p :: rest =>
    if isBreak p.char then skip false true rest
    else if comment || p.char == ' ' then skip comment newLine rest
    else if p.char == '#' then skip true newLine rest
    else (newLine, p :: rest)

/-- Ends all collections in block style. -/
def finish? (l : Layout) : Option (List Token) := do
  let l ← (l.close fun _ => true).dropKey?
  return l.tokens.reverse

/-- Reads on.  The number bounds the tokens. -/
def run (l : Layout) : Nat → List Placed → Option (List Token)
  | 0, _ => none
  | fuel + 1, cs =>
    match skip false false cs with
    | (_, []) => l.finish?
    | (newLine, p :: rest) => do
      let l := { l with keyAllowed := l.keyAllowed || (newLine && !l.inFlow) }
      let l ← l.forgetKeys? p
      let (l, rest) ← (l.close fun column => p.column < column).step p rest
      run l fuel rest

end Layout

/-- The tokens of a text. -/
def tokens? (text : List Char) : Option (List Token) :=
  if text.all isAllowed then Layout.empty.run (text.length + 1) (place text) else none

end DotWriter.Yaml
