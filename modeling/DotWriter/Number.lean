import DotWriter.Fault
import DotWriter.Raw

/-!
# Numbers

A `Number` is an integer of any size or a number of the 64-bit format.  The two are compared by
their exact values, never by rounding one to the other.

A value keeps only finite numbers of the 64-bit format.  `Double.of` and `Double.ofInt` check that a
number is one, and name what it is for if it is not.  `Raw.number` takes any number out of raw data,
and `Number.rounded` brings it into the format.
-/

namespace DotWriter

/-- An integer or a floating point number. -/
inductive Number
  | int (n : Int)
  | float (x : Binary64)
deriving DecidableEq

namespace Number

/-- The exact value of a number that is finite. -/
def toRat? : Number → Option Rat
  | int n => some n
  | float (.finite x) => some x.toRat
  | float _ => none

/-- The number as a number of the 64-bit format. -/
def toBinary64 : Number → Binary64
  | int n => Binary64.ofInt n
  | float x => x

/-- The text of the number. -/
def text : Number → String
  | int n => toString n
  | float x => x.text

/-- Whether the number lies between zero and one. -/
def inUnit (x : Number) : Bool :=
  match x.toRat? with
  | some r => 0 ≤ r && r ≤ 1
  | none => false

/-- Whether the first of two finite numbers is smaller. -/
def less (x y : Number) : Bool :=
  match x.toRat?, y.toRat? with
  | some a, some b => a < b
  | _, _ => false

end Number

/-! ### Numbers that values keep -/

/-- Checks that a number is finite. -/
def Double.of (what : String) : Binary64 → Except Fault Double
  | .finite x => .ok x
  | x => .error (.notFinite what x.text)

/-- Rounds an integer, which may be too large for the format. -/
def Double.ofInt (n : Int) : Except Fault Double :=
  match Binary64.ofInt n with
  | .finite x => .ok x
  | _ => .error .tooLarge

/-- The number that raw data brings; a truth value counts as zero or one. -/
def Raw.number : Raw → Except Fault Number
  | .int n => .ok (.int n)
  | .bool b => .ok (.int (if b then 1 else 0))
  | .float x => .ok (.float x)
  | _ => .error .wrongOperand

/-- The number as one of the 64-bit format. -/
def Number.rounded : Number → Except Fault Binary64
  | .int n => .finite <$> Double.ofInt n
  | .float x => .ok x

end DotWriter
