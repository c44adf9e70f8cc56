import DotWriter.Fault

/-!
# Integers of 64 bits

An `Integer` lies in the range of signed 64-bit numbers.  Its operations are exact: a result out of
range is refused and never wraps, and a quotient is cut toward zero.
-/

namespace DotWriter

/-- The smallest integer of 64 bits, `-2 ^ 63`. -/
def minInteger : Int := -9223372036854775808

/-- The largest integer of 64 bits, `2 ^ 63 - 1`. -/
def maxInteger : Int := 9223372036854775807

/-- An integer of 64 bits. -/
structure Integer where
  val : Int
  inRange : minInteger ≤ val ∧ val ≤ maxInteger
deriving DecidableEq

namespace Integer

/-- Checks the range. -/
def of (n : Int) : Except Fault Integer :=
  if h : minInteger ≤ n ∧ n ≤ maxInteger then .ok ⟨n, h⟩ else .error (.intRange n)

/-- The opposite number. -/
def neg (a : Integer) : Except Fault Integer := of (-a.val)

/-- The sum. -/
def add (a b : Integer) : Except Fault Integer := of (a.val + b.val)

/-- The difference. -/
def sub (a b : Integer) : Except Fault Integer := of (a.val - b.val)

/-- The product. -/
def mul (a b : Integer) : Except Fault Integer := of (a.val * b.val)

/-- The quotient of absolute values, with a minus sign if one of the two numbers is negative. -/
def truncatedQuotient (a b : Int) : Int :=
  let q : Int := a.natAbs / b.natAbs
  if (a < 0) ≠ (b < 0) then -q else q

/-- The quotient without its fraction. -/
def div (a b : Integer) : Except Fault Integer :=
  if b.val = 0 then .error (.divisionByZero "Int") else of (truncatedQuotient a.val b.val)

end Integer

end DotWriter
