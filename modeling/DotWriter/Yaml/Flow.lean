import DotWriter.Text.Numeral
import DotWriter.Yaml.Place

/-!
# Scalars that are folded

Plain and quoted scalars can go over several lines.  White space between two words is kept within
a line, and a single line end becomes a blank.

* `Gap` is the white space since the last character, and `Gap.text` what becomes of it;
* `plainScalar`, `singleQuoted?` and `doubleQuoted?` read a scalar and leave what comes after it.
-/

namespace DotWriter.Yaml

/-- White space inside a scalar. -/
inductive Gap
  | none
  /-- Blanks within a line. -/
  | blanks (cs : List Char)
  /-- A line end, with more of them on empty lines. -/
  | lines (first : Char) (more : List Char)
  /-- A line end that does not count, with more of them on empty lines. -/
  | joined (more : List Char)

namespace Gap

/-- What is kept of white space: blanks within a line, and the line ends of empty lines.  Where
there are none, an ordinary line end becomes a blank. -/
def text : Gap → List Char
  | none => []
  | blanks cs => cs
  | lines first more =>
    (if first != '\n' then [first] else if more.isEmpty then [' '] else []) ++ more
  | joined more => more

/-- One more blank. -/
def blank (c : Char) : Gap → Gap
  | none => blanks [c]
  | blanks cs => blanks (cs ++ [c])
  | other => other

/-- One more line end. -/
def newLine (c : Char) : Gap → Gap
  | lines first more => lines first (more ++ [c])
  | joined more => joined (more ++ [c])
  | _ => lines c []

/-- Whether the white space goes over a line end. -/
def isLines : Gap → Bool
  | lines .. | joined _ => true
  | _ => false

/-- Whether there is no white space. -/
def isNone : Gap → Bool
  | none => true
  | _ => false

end Gap

/-! ### Plain scalars -/

/-- A plain scalar, whether it was left at the beginning of a line, and what comes after it. -/
structure Plain where
  text : List Char
  newLine : Bool
  rest : List Placed

/-- The brackets and commas of collections in flow style. -/
def isFlowMark (c : Char) : Bool := c == ',' || c == '[' || c == ']' || c == '\x7b' || c == '\x7d'

/-- Whether a colon stands alone: before the end of a word and, in flow style, before a mark. -/
def isColon (flow : Bool) (c : Char) (rest : List Placed) : Bool :=
  c == ':' && (endsWord rest || (flow && rest.head?.any fun p => isFlowMark p.char))

/-- Whether a plain scalar cannot go on with a character. -/
def endsPlain (flow : Bool) (c : Char) (rest : List Placed) : Bool :=
  c == '\t' || isColon flow c rest || (flow && (isFlowMark c || c == '?'))

/-- Reads on in a plain scalar after white space.  Outside of flow style, its further lines have to
start at the given column or beyond. -/
def plainFrom (flow : Bool) (indent : Nat) (gap : Gap) : List Placed → Plain
  | [] => ⟨[], gap.isLines, []⟩
  | p :: rest =>
    let c := p.char
    let stop : Plain := ⟨[], gap.isLines, p :: rest⟩
    if c == ' ' then plainFrom flow indent (gap.blank ' ') rest
    else if isBreak c then
      if atSeparator rest then ⟨[], true, rest⟩ else plainFrom flow indent (gap.newLine c) rest
    else if (c == '#' && !gap.isNone) || (gap.isLines && !flow && p.column < indent) ||
        endsPlain flow c rest then stop
    else
      let after := plainFrom flow indent .none rest
      { after with text := gap.text ++ c :: after.text }

/-- Reads a plain scalar. -/
def plainScalar (flow : Bool) (indent : Nat) (cs : List Placed) : Plain :=
  plainFrom flow indent .none cs

/-! ### Quoted scalars -/

/-- A quoted scalar and what comes after it. -/
abbrev Quoted := Option (List Char × List Placed)

/-- A quoted scalar with more text in front. -/
def Quoted.after (text : List Char) (q : Quoted) : Quoted := q.map fun (s, rest) => (text ++ s, rest)

/-- Reads on in a scalar between single quotes after white space.  A quote in it is written
twice. -/
def singleQuotedFrom (gap : Gap) : List Placed → Quoted
  | [] => none
  | ⟨'\'', _, _, _⟩ :: ⟨'\'', _, _, _⟩ :: rest =>
    (singleQuotedFrom .none rest).after (gap.text ++ ['\''])
  | ⟨'\'', _, _, _⟩ :: rest => some (gap.text, rest)
  | p :: rest =>
    if p.char == ' ' || p.char == '\t' then singleQuotedFrom (gap.blank p.char) rest
    else if isBreak p.char then
      if atSeparator rest then none else singleQuotedFrom (gap.newLine p.char) rest
    else (singleQuotedFrom .none rest).after (gap.text ++ [p.char])

/-- Reads a scalar after its opening single quote. -/
def singleQuoted? (cs : List Placed) : Quoted := singleQuotedFrom .none cs

/-- What a character stands for after a backslash. -/
def escaped? : Char → Option Char
  | '0' => some '\x00'
  | 'a' => some '\x07'
  | 'b' => some '\x08'
  | 't' => some '\t'
  | '\t' => some '\t'
  | 'n' => some '\n'
  | 'v' => some '\x0b'
  | 'f' => some '\x0c'
  | 'r' => some '\r'
  | 'e' => some '\x1b'
  | ' ' => some ' '
  | '"' => some '"'
  | '\\' => some '\\'
  | '/' => some '/'
  | 'N' => some '\u0085'
  | '_' => some '\u00a0'
  | 'L' => some '\u2028'
  | 'P' => some '\u2029'
  | _ => none

/-- The character with the number that hexadecimal digits stand for. -/
def coded? (digits : List Placed) : Option Char := do
  let ds ← digits.mapM fun p => if p.char.toNat < 128 then hexValue? p.char else none
  return Char.ofNat (ofDigits 16 ds)

/-- Reads on in a scalar between double quotes after white space.  A backslash gives the next
characters a meaning of their own; at the end of a line it joins the lines. -/
def doubleQuotedFrom (gap : Gap) : List Placed → Quoted
  | [] => none
  | ⟨'"', _, _, _⟩ :: rest => some (gap.text, rest)
  | ⟨'\\', _, _, _⟩ :: ⟨'x', _, _, _⟩ :: a :: b :: rest =>
    (coded? [a, b]).bind fun c => (doubleQuotedFrom .none rest).after (gap.text ++ [c])
  | ⟨'\\', _, _, _⟩ :: ⟨'u', _, _, _⟩ :: a :: b :: c :: d :: rest =>
    (coded? [a, b, c, d]).bind fun c => (doubleQuotedFrom .none rest).after (gap.text ++ [c])
  | ⟨'\\', _, _, _⟩ :: ⟨'U', _, _, _⟩ :: a :: b :: c :: d :: e :: f :: g :: h :: rest =>
    (coded? [a, b, c, d, e, f, g, h]).bind fun c =>
      (doubleQuotedFrom .none rest).after (gap.text ++ [c])
  | ⟨'\\', _, _, _⟩ :: p :: rest =>
    if isBreak p.char then
      if atSeparator rest then none
      else (doubleQuotedFrom (.joined []) rest).after gap.text
    else (escaped? p.char).bind fun c => (doubleQuotedFrom .none rest).after (gap.text ++ [c])
  | p :: rest =>
    if p.char == ' ' || p.char == '\t' then doubleQuotedFrom (gap.blank p.char) rest
    else if isBreak p.char then
      if atSeparator rest then none else doubleQuotedFrom (gap.newLine p.char) rest
    else (doubleQuotedFrom .none rest).after (gap.text ++ [p.char])

/-- Reads a scalar after its opening double quote. -/
def doubleQuoted? (cs : List Placed) : Quoted := doubleQuotedFrom .none cs

end DotWriter.Yaml
