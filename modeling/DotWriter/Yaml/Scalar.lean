import DotWriter.Fault
import DotWriter.Raw
import DotWriter.Text.Numeral

/-!
# What scalars stand for

A scalar without quotes is nothing at all, a truth value or a number if it is written like one, and
a text otherwise.

* `wholeNumber?` reads integers: binary, octal, decimal, hexadecimal, and in parts of base sixty;
* `decimalNumber?` reads numbers with a point, also in parts of base sixty;
* `plainRaw` decides between all of them.

Underscores between digits are dropped.
-/

namespace DotWriter.Yaml

/-- The spellings of nothing at all. -/
def nullWords : List String := ["", "~", "null", "Null", "NULL"]

/-- The spellings of truth values. -/
def boolWords : List (String × Bool) := [
  ("yes", true), ("Yes", true), ("YES", true), ("no", false), ("No", false), ("NO", false),
  ("true", true), ("True", true), ("TRUE", true), ("false", false), ("False", false),
  ("FALSE", false), ("on", true), ("On", true), ("ON", true), ("off", false), ("Off", false),
  ("OFF", false)]

/-- The spellings of infinity, after a sign, and of what is no number. -/
def specialWords : List (String × Binary64) := [
  (".inf", .infinite false), (".Inf", .infinite false), (".INF", .infinite false),
  ("+.inf", .infinite false), ("+.Inf", .infinite false), ("+.INF", .infinite false),
  ("-.inf", .infinite true), ("-.Inf", .infinite true), ("-.INF", .infinite true),
  (".nan", .nan), (".NaN", .nan), (".NAN", .nan)]

/-- Scalars that have a meaning outside of data. -/
def reservedWords : List String := ["=", "<<"]

/-- Whether a character is a digit below the given one, or an underscore. -/
def isDigitBelow (limit : Char) (c : Char) : Bool := ('0' ≤ c && c < limit) || c == '_'

/-- Whether a character is a decimal digit or an underscore. -/
def isDecimal (c : Char) : Bool := c.isDigit || c == '_'

/-- Whether a character is a hexadecimal digit or an underscore. -/
def isHex (c : Char) : Bool := isDecimal c || ('a' ≤ c && c ≤ 'f') || ('A' ≤ c && c ≤ 'F')

/-- The number of digits in the given base; underscores alone are none. -/
def based (base : Nat) (cs : List Char) : Except Fault Int :=
  match cs.filterMap hexValue? with
  | [] => .error .unreadableText
  | ds => .ok (ofDigits base ds)

/-- Whether a part of a number in base sixty after the first is one or two digits below sixty. -/
def isSixtieth : List Char → Bool
  | [a] => a.isDigit
  | [a, b] => '0' ≤ a && a ≤ '5' && b.isDigit
  | _ => false

/-- The parts of a number in base sixty after its first part. -/
def areSixtieths (parts : List (List Char)) : Bool := !parts.isEmpty && parts.all isSixtieth

/-- Reads an integer without its sign. -/
def wholeDigits? (cs : List Char) : Option (Except Fault Int) :=
  match cs with
  | ['0'] => some (.ok 0)
  | '0' :: 'b' :: c :: ds =>
    if (c :: ds).all (isDigitBelow '2') then some (based 2 (c :: ds)) else none
  | '0' :: 'x' :: c :: ds => if (c :: ds).all isHex then some (based 16 (c :: ds)) else none
  | '0' :: ds => if ds.all (isDigitBelow '8') then some (based 8 cs) else none
  | c :: _ =>
    if !c.isDigit then none
    else match cs.splitOn ':' with
      | [digits] => if digits.all isDecimal then some (based 10 digits) else none
      | first :: parts =>
        if first.all isDecimal && areSixtieths parts then
          some do
            let values ← (first :: parts).mapM (based 10)
            return values.foldl (fun n d => n * 60 + d) 0
        else none
      | [] => none
  | [] => none

/-- Reads an integer. -/
def wholeNumber? (cs : List Char) : Option (Except Fault Int) :=
  let (negative, digits) := readSign cs
  (wholeDigits? digits).map fun n => if negative then (- ·) <$> n else n

/-- Whether a text is empty or an exponent with its sign. -/
def isExponent : List Char → Bool
  | [] => true
  | e :: sign :: c :: ds =>
    (e == 'e' || e == 'E') && (sign == '+' || sign == '-') && (c :: ds).all Char.isDigit
  | _ => false

/-- A number in base sixty from its parts, of which the first counts most. -/
def sixties (parts : List Binary64) : Binary64 :=
  (parts.reverse.foldl (fun (sum, unit) x => (sum + x * Binary64.ofInt unit, unit * 60))
    (Binary64.ofInt 0, (1 : Int))).1

/-- Whether the digits before a point are right: some in front of it, or none and no sign. -/
def isWholePart (signed : Bool) : List Char → List Char → Bool
  | [], after => !signed && after.head?.any Char.isDigit
  | c :: cs, _ => c.isDigit && cs.all isDecimal

/-- Reads digits with a point, from which underscores are dropped. -/
def pointed? (cs : List Char) : Option Binary64 := readDecimal? false (cs.filter (· != '_'))

/-- Reads the parts of a number in base sixty, of which the last has a fraction. -/
def sixtyNumber? (parts : List (List Char)) (fraction : List Char) : Option Binary64 := do
  match parts with
  | (c :: first) :: rest =>
    if !(c.isDigit && first.all isDecimal && areSixtieths rest) then none
    let last ← rest.getLast?
    let front ← ((c :: first) :: rest.dropLast).mapM pointed?
    return sixties (front ++ [← pointed? (last ++ '.' :: fraction)])
  | _ => none

/-- Reads a number with a point. -/
def decimalNumber? (cs : List Char) : Option Binary64 := do
  let (negative, digits) := readSign cs
  let (whole, after) ← cutFirst '.' digits
  let fraction := after.takeWhile isDecimal
  let rest := after.dropWhile isDecimal
  let x ←
    if isWholePart (digits.length < cs.length) whole after && isExponent rest then pointed? digits
    else if rest.isEmpty then sixtyNumber? (whole.splitOn ':') fraction
    else none
  return if negative then -x else x

/-- What a scalar without quotes stands for. -/
def plainRaw (cs : List Char) : Except Fault Raw :=
  let s := String.ofList cs
  if reservedWords.contains s then .error .invalidYaml
  else if nullWords.contains s then .ok .null
  else match boolWords.lookup s, specialWords.lookup s with
    | some b, _ => .ok (.bool b)
    | _, some x => .ok (.float x)
    | none, none =>
      match decimalNumber? cs, wholeNumber? cs with
      | some x, _ => .ok (.float x)
      | none, some n => .int <$> n
      | none, none => .ok (.text s)

end DotWriter.Yaml
