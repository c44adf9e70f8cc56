/-!
# Double precision numbers

`Double` is a finite number of the 64-bit binary format, `Binary64` any number of it.

* `roundHalfEven` is the nearest integer of a rational number, `binaryLog` and `decimalLog` the
  exponents of the largest power of two and of ten that do not exceed a positive number;
* `Double.toRat` is the exact value of a finite number;
* `Binary64.round` is the nearest number of the format to an exact value, a tie going to the
  even significand, with overflow to an infinity;
* addition, subtraction, multiplication and division are the exact operations followed by
  `Binary64.round`.

A finite number is a sign and an index: all magnitudes of the format, smallest first, are
numbered from zero.  The first `2 ^ 53` of them are the multiples of `2 ^ (-1074)`, and every
further block of `2 ^ 52` doubles the distance between neighbours.
-/

namespace DotWriter

/-! ### Rounding to whole numbers -/

/-- The nearest integer; a number half-way between two integers goes to the even one. -/
def roundHalfEven (x : Rat) : Int :=
  let below := x.floor
  let rest := x - below
  if rest < 1 / 2 then below
  else if 1 / 2 < rest then below + 1
  else if below % 2 = 0 then below
  else below + 1

/-- The exponent of the largest power of two that does not exceed the positive number `x`.  The
bit lengths of numerator and denominator leave two candidates. -/
def binaryLog (x : Rat) : Int :=
  let guess : Int := (x.num.toNat.log2 : Int) - (x.den.log2 : Int)
  if (2 : Rat) ^ guess ≤ x then guess else guess - 1

/-- Number of decimal digits of `n`, one for zero. -/
def decimalLength (n : Nat) : Nat := (Nat.toDigits 10 n).length

/-- The exponent of the largest power of ten that does not exceed the positive number `x`.  Below
one, `10 ^ (-t) ≤ x` says that `10 ^ t` is at least the ceiling of `1 / x`. -/
def decimalLog (x : Rat) : Int :=
  if 1 ≤ x then (decimalLength x.floor.toNat : Int) - 1
  else -(decimalLength ((1 / x).ceil.toNat - 1) : Int)

/-! ### The format -/

/-- The number `2 ^ 52` of magnitudes that have the same distance to their neighbours. -/
def blockSize : Nat := 4503599627370496

/-- The number of magnitudes: 2047 blocks. -/
def magnitudeCount : Nat := 2047 * blockSize

/-- A finite number of the 64-bit binary format. -/
structure Double where
  /-- Set for numbers written with a minus sign, the negative zero among them. -/
  negative : Bool
  /-- Position of the magnitude among all magnitudes of the format. -/
  index : Fin magnitudeCount
deriving DecidableEq

namespace Double

/-- The whole number that the magnitude is, in units of the last place. -/
def significand (x : Double) : Nat :=
  if x.index.val < blockSize then x.index.val else blockSize + x.index.val % blockSize

/-- The unit of the last place is two to this power. -/
def exponent (x : Double) : Int :=
  if x.index.val < blockSize then -1074 else (x.index.val / blockSize : Nat) - 1075

/-- The exact distance from zero. -/
def magnitude (x : Double) : Rat := (x.significand : Rat) * (2 : Rat) ^ x.exponent

/-- The exact value. -/
def toRat (x : Double) : Rat := if x.negative then -x.magnitude else x.magnitude

/-- The positive zero. -/
def zero : Double := ⟨false, ⟨0, by decide⟩⟩

instance : Neg Double := ⟨fun x => { x with negative := !x.negative }⟩

/-- Distance from zero, as a number of the format. -/
def abs (x : Double) : Double := { x with negative := false }

instance : LT Double := ⟨fun x y => x.toRat < y.toRat⟩

instance : LE Double := ⟨fun x y => x.toRat ≤ y.toRat⟩

instance (x y : Double) : Decidable (x < y) := inferInstanceAs (Decidable (x.toRat < y.toRat))

instance (x y : Double) : Decidable (x ≤ y) := inferInstanceAs (Decidable (x.toRat ≤ y.toRat))

/-- Numeric equality: both zeros are equal. -/
def equals (x y : Double) : Bool := x.toRat == y.toRat

end Double

/-- A number of the 64-bit binary format. -/
inductive Binary64
  | finite (x : Double)
  | infinite (negative : Bool)
  | nan
deriving DecidableEq

namespace Binary64

/-- The magnitude nearest to the non-negative `x`, numbered as in `Double.index` without its
upper end.  A significand that rounds up to `2 ^ 53` is the first of the next block. -/
def nearestIndex (x : Rat) : Nat :=
  if x = 0 then 0
  else
    let e := max (binaryLog x - 52) (-1074)
    (roundHalfEven (x / (2 : Rat) ^ e)).toNat + (e + 1074).toNat * blockSize

/-- The nearest number of the format.  Zero is written with the sign `zeroNegative`. -/
def round (x : Rat) (zeroNegative : Bool := false) : Binary64 :=
  let negative := if x = 0 then zeroNegative else decide (x < 0)
  let i := nearestIndex (if x < 0 then -x else x)
  if h : i < magnitudeCount then .finite ⟨negative, i, h⟩ else .infinite negative

/-- The nearest number to an integer. -/
def ofInt (n : Int) : Binary64 := round n

/-- The finite number, if it is one. -/
def finite? : Binary64 → Option Double
  | .finite x => some x
  | _ => none

/-- Whether the sign is set. -/
def negative : Binary64 → Bool
  | .finite x => x.negative
  | .infinite s => s
  | .nan => false

/-- Numeric equality: both zeros are equal, and the number that is none differs from itself. -/
def equals : Binary64 → Binary64 → Bool
  | .finite x, .finite y => x.equals y
  | .infinite s, .infinite t => s == t
  | _, _ => false

instance : Neg Binary64 where
  neg
    | .finite x => .finite (-x)
    | .infinite s => .infinite (!s)
    | .nan => .nan

/-- The exact sum, rounded.  A sum of zero is negative only between two negative numbers. -/
protected def add : Binary64 → Binary64 → Binary64
  | .finite x, .finite y => round (x.toRat + y.toRat) (x.negative && y.negative)
  | .infinite s, .infinite t => if s = t then .infinite s else .nan
  | .infinite s, .finite _ => .infinite s
  | .finite _, .infinite s => .infinite s
  | _, _ => .nan

instance : Add Binary64 := ⟨Binary64.add⟩

instance : Sub Binary64 := ⟨fun x y => x + -y⟩

/-- The exact product, rounded. -/
protected def mul : Binary64 → Binary64 → Binary64
  | .finite x, .finite y => round (x.toRat * y.toRat) (x.negative != y.negative)
  | .infinite s, .infinite t => .infinite (s != t)
  | .infinite s, .finite y => if y.toRat = 0 then .nan else .infinite (s != y.negative)
  | .finite x, .infinite s => if x.toRat = 0 then .nan else .infinite (x.negative != s)
  | _, _ => .nan

instance : Mul Binary64 := ⟨Binary64.mul⟩

/-- The exact quotient, rounded. -/
protected def div : Binary64 → Binary64 → Binary64
  | .finite x, .finite y =>
    if y.toRat = 0 then if x.toRat = 0 then .nan else .infinite (x.negative != y.negative)
    else round (x.toRat / y.toRat) (x.negative != y.negative)
  | .infinite s, .finite y => .infinite (s != y.negative)
  | .finite x, .infinite s => .finite { Double.zero with negative := x.negative != s }
  | _, _ => .nan

instance : Div Binary64 := ⟨Binary64.div⟩

end Binary64

namespace Double

instance : Coe Double Binary64 := ⟨Binary64.finite⟩

/-- What is left of the non-negative `x` after taking away whole multiples of the positive `y`;
the exact rest is always a number of the format. -/
def remainder (x y : Double) : Binary64 :=
  Binary64.round (x.toRat - y.toRat * (x.toRat / y.toRat).floor)

/-- The quotient of the non-negative `x` by the positive `y`, rounded down.  The quotient of the
rounded difference is taken, and brought back to the nearest whole number below it. -/
def floorDiv (x y : Double) : Binary64 :=
  match ((x : Binary64) - x.remainder y) / (y : Binary64) with
  | .finite q =>
    let below := q.toRat.floor
    Binary64.ofInt (if 1 / 2 < q.toRat - below then below + 1 else below)
  | other => other

end Double

end DotWriter
