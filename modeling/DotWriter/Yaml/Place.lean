/-!
# Characters in their places

Where a character of a YAML text stands decides what it means.  A `Placed` character knows its line
and column.

* `place` puts the characters of a text in their places, with one character for every way to end a
  line;
* `isBreak`, `isBlankOrBreak` and `isSeparator` recognise line ends, the ends of words, and the
  marks between documents;
* `isAllowed` decides whether a text may hold a character at all.
-/

namespace DotWriter.Yaml

/-- A character of a text. -/
structure Placed where
  char : Char
  line : Nat
  column : Nat
  /-- Number of characters before it. -/
  offset : Nat

/-- The characters that end a line. -/
def isBreak (c : Char) : Bool := c == '\n' || c == '\u2028' || c == '\u2029'

/-- The characters that end a word. -/
def isBlankOrBreak (c : Char) : Bool := c == ' ' || c == '\t' || isBreak c

/-- The characters that a text may hold. -/
def isAllowed (c : Char) : Bool :=
  c == '\t' || c == '\n' || c == '\r' || (0x20 ≤ c.toNat && c.toNat < 0x7F) || c == '\u0085' ||
    (0xA0 ≤ c.toNat && c.toNat < 0xFFFE) || 0x10000 ≤ c.toNat

/-- Puts characters in their places, from the given place on.  A carriage return, with or without a
line feed, and the control character for the next line end a line as a line feed does. -/
def placeFrom (line column offset : Nat) : List Char → List Placed
  | [] => []
  | '\r' :: '\n' :: cs => ⟨'\n', line, column, offset⟩ :: placeFrom (line + 1) 0 (offset + 2) cs
  | c :: cs =>
    let c := if c = '\r' ∨ c = '\u0085' then '\n' else c
    if isBreak c then ⟨c, line, column, offset⟩ :: placeFrom (line + 1) 0 (offset + 1) cs
    else ⟨c, line, column, offset⟩ ::
      placeFrom line (if c = '\uFEFF' then column else column + 1) (offset + 1) cs

/-- Puts the characters of a text in their places.  A byte order mark in front is dropped. -/
def place (cs : List Char) : List Placed :=
  match cs with
  | '\uFEFF' :: cs => placeFrom 0 0 1 cs
  | cs => placeFrom 0 0 0 cs

/-- Whether a word ends here. -/
def endsWord : List Placed → Bool
  | [] => true
  | p :: _ => isBlankOrBreak p.char

/-- Whether a mark between documents stands at the beginning of a line: three hyphens or three
dots that are a word. -/
def isSeparator (mark : Char) : List Placed → Bool
  | a :: b :: c :: rest => a.char == mark && b.char == mark && c.char == mark && endsWord rest
  | _ => false

/-- Whether a mark of either kind stands at the beginning of a line. -/
def atSeparator (cs : List Placed) : Bool := isSeparator '-' cs || isSeparator '.' cs

end DotWriter.Yaml
