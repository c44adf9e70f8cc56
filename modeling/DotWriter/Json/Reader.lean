import DotWriter.Raw
import DotWriter.Text.Numeral

/-!
# Reading JSON

`readJson?` reads a JSON text as raw data.  Besides the standard it takes the names of the numbers
that are not finite, and of a repeated key it keeps the last value.
-/

namespace DotWriter

namespace Json

/-- Drops the white space between tokens. -/
def skipSpace (cs : List Char) : List Char :=
  cs.dropWhile fun c => c = ' ' || c = '\t' || c = '\n' || c = '\r'

/-- The value of an ASCII hexadecimal digit. -/
def hexDigit? (c : Char) : Option Nat := if c.toNat < 128 then hexValue? c else none

/-- The number that four hexadecimal digits stand for. -/
def fourHex? (a b c d : Char) : Option Nat := do
  return ofDigits 16 [← hexDigit? a, ← hexDigit? b, ← hexDigit? c, ← hexDigit? d]

/-- The character after a backslash. -/
def escape? : Char → Option Char
  | '"' => some '"'
  | '\\' => some '\\'
  | '/' => some '/'
  | 'b' => some '\x08'
  | 'f' => some '\x0c'
  | 'n' => some '\n'
  | 'r' => some '\r'
  | 't' => some '\t'
  | _ => none

/-- The code units of a string up to its closing quote, and the rest. -/
def codeUnits? : List Char → Option (List Nat × List Char)
  | '"' :: rest => some ([], rest)
  | '\\' :: 'u' :: a :: b :: c :: d :: rest => do
    let u ← fourHex? a b c d
    let (us, rest) ← codeUnits? rest
    return (u :: us, rest)
  | '\\' :: c :: rest => do
    let c ← escape? c
    let (us, rest) ← codeUnits? rest
    return (c.toNat :: us, rest)
  | c :: rest =>
    if c.toNat < 0x20 then none
    else do
      let (us, rest) ← codeUnits? rest
      return (c.toNat :: us, rest)
  | [] => none

/-- Joins the two halves of characters beyond `U+FFFF`. -/
def joinHalves : List Nat → List Char
  | high :: low :: rest =>
    if 0xD800 ≤ high ∧ high < 0xDC00 ∧ 0xDC00 ≤ low ∧ low < 0xE000 then
      Char.ofNat (0x10000 + (high - 0xD800) * 0x400 + (low - 0xDC00)) :: joinHalves rest
    else Char.ofNat high :: joinHalves (low :: rest)
  | [u] => [Char.ofNat u]
  | [] => []

/-- The ASCII digits that a text begins with, and the rest. -/
def digits (cs : List Char) : List Char × List Char := cs.span Char.isDigit

/-- The digits of a whole number: zero, or digits of which the first is not zero. -/
def wholePart? : List Char → Option (List Char × List Char)
  | '0' :: rest => some (['0'], rest)
  | c :: rest => if c.isDigit then some (digits (c :: rest)) else none
  | [] => none

/-- A point and the digits after it, if they are there. -/
def fractionPart : List Char → List Char × List Char
  | '.' :: rest =>
    match digits rest with
    | ([], _) => ([], '.' :: rest)
    | (ds, after) => ('.' :: ds, after)
  | cs => ([], cs)

/-- An exponent, if it is there. -/
def exponentPart : List Char → List Char × List Char
  | e :: rest =>
    if e = 'e' ∨ e = 'E' then
      let (sign, afterSign) := match rest with
        | '+' :: r => (['+'], r)
        | '-' :: r => (['-'], r)
        | r => ([], r)
      match digits afterSign with
      | ([], _) => ([], e :: rest)
      | (ds, after) => (e :: (sign ++ ds), after)
    else ([], e :: rest)
  | [] => ([], [])

/-- Reads a number whose sign has been taken off. -/
def number? (negative : Bool) (cs : List Char) : Option (Raw × List Char) := do
  let (whole, rest) ← wholePart? cs
  let (fraction, rest) := fractionPart rest
  let (power, rest) := exponentPart rest
  if fraction = [] ∧ power = [] then
    let n : Int := ofDigits 10 (whole.map fun c => c.toNat - 48)
    return (.int (if negative then -n else n), rest)
  else
    let x ← readDecimal? negative (whole ++ fraction ++ power)
    return (.float x, rest)

/-- Takes a word off the front of a text. -/
def word? (word : String) (cs : List Char) : Option (List Char) :=
  if word.toList.isPrefixOf cs then some (cs.drop word.length) else none

/-- The words that stand for values, and for numbers that are not finite. -/
def words : List (String × Raw) := [
  ("null", .null), ("true", .bool true), ("false", .bool false), ("NaN", .float .nan),
  ("Infinity", .float (.infinite false)), ("-Infinity", .float (.infinite true))]

/-- Reads a word or a number. -/
def scalar? (cs : List Char) : Option (Raw × List Char) :=
  match words.findSome? fun (w, r) => (word? w cs).map fun rest => (r, rest) with
  | some found => some found
  | none =>
    match cs with
    | '-' :: rest => number? true rest
    | cs => number? false cs

mutual

/-- Reads a value.  The fuel bounds the depth of recursion. -/
def value? : Nat → List Char → Option (Raw × List Char)
  | 0, _ => none
  | fuel + 1, cs =>
    match cs with
    | '"' :: rest => do
      let (us, rest) ← codeUnits? rest
      return (.text (String.ofList (joinHalves us)), rest)
    | '[' :: rest =>
      match skipSpace rest with
      | ']' :: rest => some (.list [], rest)
      | rest => do
        let (items, rest) ← items? fuel rest
        return (.list items, rest)
    | '\x7b' :: rest =>
      match skipSpace rest with
      | '\x7d' :: rest => some (.map [], rest)
      | rest => do
        let (entries, rest) ← entries? fuel [] rest
        return (.map entries, rest)
    | cs => scalar? cs

/-- Reads the items of a list up to its closing bracket. -/
def items? : Nat → List Char → Option (List Raw × List Char)
  | 0, _ => none
  | fuel + 1, cs => do
    let (item, rest) ← value? fuel cs
    match skipSpace rest with
    | ']' :: rest => return ([item], rest)
    | ',' :: rest => do
      let (items, rest) ← items? fuel (skipSpace rest)
      return (item :: items, rest)
    | _ => none

/-- Reads the entries of a mapping up to its closing brace, after those read before. -/
def entries? : Nat → List (Raw × Raw) → List Char → Option (List (Raw × Raw) × List Char)
  | 0, _, _ => none
  | fuel + 1, before, cs =>
    match cs with
    | '"' :: rest => do
      let (us, rest) ← codeUnits? rest
      let key := Raw.text (String.ofList (joinHalves us))
      match skipSpace rest with
      | ':' :: rest => do
        let (v, rest) ← value? fuel (skipSpace rest)
        let entries := Raw.setEntry before key v
        match skipSpace rest with
        | '\x7d' :: rest => return (entries, rest)
        | ',' :: rest => entries? fuel entries (skipSpace rest)
        | _ => none
      | _ => none
    | _ => none

end

end Json

/-- Reads a JSON text as raw data. -/
def readJson? (s : String) : Option Raw := do
  let cs := s.toList
  let (r, rest) ← Json.value? (cs.length + 1) (Json.skipSpace cs)
  if Json.skipSpace rest = [] then some r else none

end DotWriter
