import DotWriter.Double.Basic
import DotWriter.Text.Blank

/-!
# Reading numerals

Every script with decimal digits of its own has ten consecutive ones, so the Unicode category of
decimal digits is given by the places of its zeros.

* `digitValue?` is the value of a decimal digit of any script, and `hexValue?` also takes the letters
  `a` to `f` in either case;
* `digitRun` reads digits, between which single underscores may stand;
* `readInteger?` and `readHexPair?` read whole numbers, `readDouble?` numbers with an optional
  fraction and exponent, or the names of the numbers that are not finite.

Blanks around a numeral are dropped, and digits of every script count.
-/

namespace DotWriter

/-! ### Digits -/

/-- Where the digits of each script begin. -/
def decimalZeros : List Nat := [
  0x30, 0x660, 0x6F0, 0x7C0, 0x966, 0x9E6, 0xA66, 0xAE6, 0xB66, 0xBE6, 0xC66, 0xCE6, 0xD66, 0xDE6,
  0xE50, 0xED0, 0xF20, 0x1040, 0x1090, 0x17E0, 0x1810, 0x1946, 0x19D0, 0x1A80, 0x1A90, 0x1B50,
  0x1BB0, 0x1C40, 0x1C50, 0xA620, 0xA8D0, 0xA900, 0xA9D0, 0xA9F0, 0xAA50, 0xABF0, 0xFF10, 0x104A0,
  0x10D30, 0x11066, 0x110F0, 0x11136, 0x111D0, 0x112F0, 0x11450, 0x114D0, 0x11650, 0x116C0, 0x11730,
  0x118E0, 0x11950, 0x11C50, 0x11D50, 0x11DA0, 0x16A60, 0x16AC0, 0x16B50, 0x1D7CE, 0x1D7D8, 0x1D7E2,
  0x1D7EC, 0x1D7F6, 0x1E140, 0x1E2F0, 0x1E950, 0x1FBF0]

/-- The value of a decimal digit of any script. -/
def digitValue? (c : Char) : Option Nat :=
  if c.toNat < 128 then if c.isDigit then some (c.toNat - 48) else none
  else
    (decimalZeros.find? fun first => first ≤ c.toNat && c.toNat < first + 10).map (c.toNat - ·)

/-- The value of a hexadecimal digit. -/
def hexValue? (c : Char) : Option Nat :=
  if 'a' ≤ c ∧ c ≤ 'f' then some (c.toNat - 87)
  else if 'A' ≤ c ∧ c ≤ 'F' then some (c.toNat - 55)
  else digitValue? c

/-- The number that a list of digit values stands for in the given base. -/
def ofDigits (base : Nat) (ds : List Nat) : Nat := ds.foldl (fun n d => n * base + d) 0

/-! ### Numerals -/

/-- The digits that follow a digit, each after at most one underscore, and the rest. -/
def digitTail (value? : Char → Option Nat) : List Char → List Nat × List Char
  | '_' :: c :: cs =>
    match value? c with
    | some d => let (ds, rest) := digitTail value? cs; (d :: ds, rest)
    | none => ([], '_' :: c :: cs)
  | c :: cs =>
    match value? c with
    | some d => let (ds, rest) := digitTail value? cs; (d :: ds, rest)
    | none => ([], c :: cs)
  | [] => ([], [])

/-- The digits that a text begins with, and the rest. -/
def digitRun (value? : Char → Option Nat) : List Char → List Nat × List Char
  | c :: cs =>
    match value? c with
    | some d => let (ds, rest) := digitTail value? cs; (d :: ds, rest)
    | none => ([], c :: cs)
  | [] => ([], [])

/-- Splits off a sign; the flag is set for a minus. -/
def readSign : List Char → Bool × List Char
  | '-' :: cs => (true, cs)
  | '+' :: cs => (false, cs)
  | cs => (false, cs)

/-- Reads a whole number in the given base. -/
def readWhole? (base : Nat) (value? : Char → Option Nat) (cs : List Char) : Option Int :=
  let (negative, cs) := readSign (trim isNumeralBlank cs)
  match digitRun value? cs with
  | ([], _) => none
  | (ds, []) => some (if negative then -(ofDigits base ds : Int) else ofDigits base ds)
  | _ => none

/-- Reads a decimal integer. -/
def readInteger? (cs : List Char) : Option Int := readWhole? 10 digitValue? cs

/-- Reads two characters as a hexadecimal number: two digits, or one digit with a sign or a
blank. -/
def readHexPair? (high low : Char) : Option Int := readWhole? 16 hexValue? [high, low]

/-- The number `digits · 10 ^ exponent`, rounded.  Far outside the range of the format the power is
not computed. -/
def scaled (negative : Bool) (digits : Nat) (exponent : Int) : Binary64 :=
  let top := exponent + decimalLength digits
  if digits = 0 ∨ top < -400 then .finite { Double.zero with negative := negative }
  else if 400 < top then .infinite negative
  else
    let x := (digits : Rat) * (10 : Rat) ^ exponent
    Binary64.round (if negative then -x else x) negative

/-- Reads the exponent at the end of a numeral. -/
def readExponent? : List Char → Option Int
  | [] => some 0
  | c :: cs =>
    if c = 'e' ∨ c = 'E' then
      let (negative, cs) := readSign cs
      match digitRun digitValue? cs with
      | ([], _) => none
      | (ds, []) => some (if negative then -(ofDigits 10 ds : Int) else ofDigits 10 ds)
      | _ => none
    else none

/-- Reads digits with an optional fraction and exponent. -/
def readDecimal? (negative : Bool) (cs : List Char) : Option Binary64 :=
  let (whole, rest) := digitRun digitValue? cs
  let (fraction, rest) := match rest with
    | '.' :: cs => digitRun digitValue? cs
    | cs => ([], cs)
  if whole = [] ∧ fraction = [] then none
  else
    (readExponent? rest).map fun e =>
      scaled negative (ofDigits 10 (whole ++ fraction)) (e - fraction.length)

/-- Reads a number of the 64-bit format. -/
def readDouble? (cs : List Char) : Option Binary64 :=
  let (negative, cs) := readSign (trim isNumeralBlank cs)
  let name := cs.map Char.toLower
  if name = ['i', 'n', 'f'] ∨ name = ['i', 'n', 'f', 'i', 'n', 'i', 't', 'y'] then
    some (.infinite negative)
  else if name = ['n', 'a', 'n'] then some .nan
  else readDecimal? negative cs

end DotWriter
