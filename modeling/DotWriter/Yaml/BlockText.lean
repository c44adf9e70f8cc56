import DotWriter.Yaml.Place

/-!
# Block scalars

A block scalar is written on lines of its own that are indented more deeply than what it belongs
to.

* `BlockStyle` says whether its line ends are folded, what becomes of the last ones, and how deeply
  it is indented; `blockHeader?` reads it;
* `blockScalar?` reads a block scalar and leaves what comes after it.
-/

namespace DotWriter.Yaml

/-- What becomes of the line ends at the end of a block scalar. -/
inductive Chomping
  /-- One of them is kept. -/
  | clip
  /-- None of them is kept. -/
  | strip
  /-- All of them are kept. -/
  | keep
deriving DecidableEq

/-- How a block scalar is written. -/
structure BlockStyle where
  folded : Bool
  chomping : Chomping
  /-- Columns beyond the indentation of what it belongs to, if they are given. -/
  extra : Option Nat

/-- The sign for what becomes of the last line ends. -/
def chomping? : Char → Option Chomping
  | '+' => some .keep
  | '-' => some .strip
  | _ => none

/-- A digit that is not zero. -/
def extra? (c : Char) : Option Nat := if '1' ≤ c ∧ c ≤ '9' then some (c.toNat - 48) else none

/-- Reads the two signs of a header in either order; both may be missing. -/
def blockSigns : List Placed → Chomping × Option Nat × List Placed
  | p :: q :: rest =>
    match chomping? p.char, extra? q.char, extra? p.char, chomping? q.char with
    | some c, some n, _, _ => (c, some n, rest)
    | some c, none, _, _ => (c, none, q :: rest)
    | none, _, some n, some c => (c, some n, rest)
    | none, _, some n, none => (.clip, some n, q :: rest)
    | none, _, none, _ => (.clip, none, p :: q :: rest)
  | [p] =>
    match chomping? p.char, extra? p.char with
    | some c, _ => (c, none, [])
    | none, some n => (.clip, some n, [])
    | none, none => (.clip, none, [p])
  | [] => (.clip, none, [])

/-- The characters up to the end of a line. -/
def upToBreak (cs : List Placed) : List Placed := cs.takeWhile fun p => !isBreak p.char

/-- What is left from the end of a line on. -/
def fromBreak (cs : List Placed) : List Placed := cs.dropWhile fun p => !isBreak p.char

/-- The end of a line as text, which may be missing at the end of everything, and what comes
after it. -/
def takeBreak : List Placed → List Char × List Placed
  | p :: rest => if isBreak p.char then ([p.char], rest) else ([], p :: rest)
  | [] => ([], [])

/-- Whether nothing but blanks and a comment is left of a line. -/
def isLineRest (cs : List Placed) : Bool :=
  match (upToBreak cs).dropWhile fun p => p.char == ' ' with
  | [] => true
  | p :: _ => p.char == '#'

/-- Reads the header of a block scalar up to the end of its line. -/
def blockHeader? (folded : Bool) (cs : List Placed) : Option (BlockStyle × List Placed) :=
  let (chomping, extra, rest) := blockSigns cs
  if rest.head?.all (fun p => p.char == ' ' || isBreak p.char) && isLineRest rest then
    some (⟨folded, chomping, extra⟩, (takeBreak (fromBreak rest)).2)
  else none

/-- Skips empty lines and blanks, and measures the deepest blank. -/
def measure (deepest : Nat) : List Placed → List Char × Nat × List Placed
  | [] => ([], deepest, [])
  | p :: rest =>
    if p.char == ' ' then measure (max deepest (p.column + 1)) rest
    else if isBreak p.char then
      let (breaks, deepest, rest) := measure deepest rest
      (p.char :: breaks, deepest, rest)
    else ([], deepest, p :: rest)

/-- Skips empty lines, and blanks before the given column. -/
def emptyLines (indent : Nat) : List Placed → List Char × List Placed
  | [] => ([], [])
  | p :: rest =>
    if p.char == ' ' && p.column < indent then emptyLines indent rest
    else if isBreak p.char then
      let (breaks, rest) := emptyLines indent rest
      (p.char :: breaks, rest)
    else ([], p :: rest)

/-- Whether a text starts at the given column. -/
def startsAt (indent : Nat) (cs : List Placed) : Bool := cs.head?.any fun p => p.column == indent

/-- Whether a line begins with a blank. -/
def startsBlank (cs : List Placed) : Bool := cs.head?.any fun p => p.char == ' ' || p.char == '\t'

/-- What stands between two lines: in folded style a single line end between lines that do not
begin with a blank becomes a blank, and before empty lines it is dropped. -/
def lineGap (folded : Bool) (line next : List Placed) (ending breaks : List Char) : List Char :=
  if folded && ending == ['\n'] && !startsBlank line && !startsBlank next then
    (if breaks.isEmpty then [' '] else []) ++ breaks
  else ending ++ breaks

/-- The lines at the given column as text, the line ends after the last one, and what comes after
them.  The number bounds the lines. -/
def blockLines (folded : Bool) (indent : Nat) :
    Nat → List Placed → List Char × List Char × List Char × List Placed
  | 0, cs => ([], [], [], cs)
  | fuel + 1, cs =>
    let text := (upToBreak cs).map Placed.char
    let (ending, rest) := takeBreak (fromBreak cs)
    let (breaks, rest) := emptyLines indent rest
    if startsAt indent rest then
      let (more, last, tail, after) := blockLines folded indent fuel rest
      (text ++ lineGap folded cs rest ending breaks ++ more, last, tail, after)
    else (text, ending, breaks, rest)

/-- Reads a block scalar after the sign of its style.  Its lines start at the given column or
beyond. -/
def blockScalar? (folded : Bool) (least : Nat) (cs : List Placed) :
    Option (List Char × List Placed) := do
  let (style, rest) ← blockHeader? folded cs
  let (breaks, indent, rest) := match style.extra with
    | some n =>
      let indent := least + n - 1
      let (breaks, rest) := emptyLines indent rest
      (breaks, indent, rest)
    | none =>
      let (breaks, deepest, rest) := measure 0 rest
      (breaks, max least deepest, rest)
  let (text, last, tail, rest) :=
    if startsAt indent rest then
      let (text, last, tail, rest) := blockLines folded indent rest.length rest
      (breaks ++ text, last, tail, rest)
    else ([], [], breaks, rest)
  let ending := match style.chomping with
    | .clip => last
    | .strip => []
    | .keep => last ++ tail
  return (text ++ ending, rest)

end DotWriter.Yaml
