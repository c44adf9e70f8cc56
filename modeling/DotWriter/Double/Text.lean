import DotWriter.Double.Basic

/-!
# Numbers as text

Numbers in a document have two places and a point.  The sign is that of the number, so that a small
negative number is written `-0.00`.  Everywhere else a number has its shortest text.

* `Double.hundredths` is the exact value rounded to hundredths, a half going to the even neighbour,
  and `Double.fixed` its text;
* `Double.shortest` finds the fewest decimal digits that read back as the same number, and among
  texts of that length the one nearest to the number;
* `Layout` says where the digits go: positional notation between two powers of ten, and
  scientific notation outside;
* `Binary64.text` is the text of a number in messages and saved documents.
-/

namespace DotWriter

/-! ### Two places -/

/-- Two decimal digits of a number below one hundred. -/
def twoDigits (n : Nat) : List Char := [Nat.digitChar (n / 10 % 10), Nat.digitChar (n % 10)]

namespace Double

/-- The distance from zero in hundredths, rounded. -/
def hundredths (x : Double) : Nat := (roundHalfEven (x.magnitude * 100)).toNat

/-- The text with two places. -/
def fixedChars (x : Double) : List Char :=
  let n := x.hundredths
  (if x.negative then ['-'] else []) ++ Nat.toDigits 10 (n / 100) ++ '.' :: twoDigits (n % 100)

/-- The text with two places. -/
def fixed (x : Double) : String := String.ofList x.fixedChars

end Double

/-- The text with two places; numbers that are not finite are named. -/
def Binary64.fixed : Binary64 → String
  | .finite x => x.fixed
  | .infinite false => "inf"
  | .infinite true => "-inf"
  | .nan => "nan"

/-! ### The shortest text -/

/-- The number `digits · 10 ^ exponent`. -/
structure Decimal where
  /-- The digits, as a whole number. -/
  digits : Nat
  /-- The power of ten of the last digit. -/
  exponent : Int
deriving DecidableEq

namespace Decimal

/-- The exact value. -/
def toRat (d : Decimal) : Rat := d.digits * (10 : Rat) ^ d.exponent

/-- Drops the zeros that a decimal text ends in. -/
def trimmed (ds : List Char) : List Char := (ds.reverse.dropWhile (· == '0')).reverse

end Decimal

namespace Double

/-- Distance to the next larger magnitude. -/
def gapAbove (x : Double) : Rat := (2 : Rat) ^ x.exponent

/-- Distance to the next smaller magnitude; it is halved at the first number of a block. -/
def gapBelow (x : Double) : Rat :=
  if x.significand = blockSize ∧ -1074 < x.exponent then (2 : Rat) ^ (x.exponent - 1)
  else (2 : Rat) ^ x.exponent

/-- Whether `v` lies nearer to the magnitude of `x` than to any other.  The half-way points belong
to the even significand. -/
def attracts (x : Double) (v : Rat) : Bool :=
  let low := x.magnitude - x.gapBelow / 2
  let high := x.magnitude + x.gapAbove / 2
  if x.significand % 2 = 0 then low ≤ v && v ≤ high else low < v && v < high

/-- The multiple of `10 ^ unit` that reads back as the magnitude of `x` and is nearest to it.  If
there is one, a neighbour of the magnitude among these multiples is one. -/
def onGrid? (x : Double) (unit : Int) : Option Decimal :=
  let scaled := x.magnitude / (10 : Rat) ^ unit
  let below : Decimal := ⟨scaled.floor.toNat, unit⟩
  let above : Decimal := ⟨scaled.floor.toNat + 1, unit⟩
  match x.attracts below.toRat, x.attracts above.toRat with
  | true, true => some ⟨(roundHalfEven scaled).toNat, unit⟩
  | true, false => some below
  | false, true => some above
  | false, false => none

/-- The decimal of fewest digits that reads back as the magnitude of `x`, which is not zero.
Seventeen digits are always enough. -/
def shortest (x : Double) : Decimal :=
  let top := decimalLog x.magnitude
  ((List.range 17).findSome? fun (n : Nat) => x.onGrid? (top - n)).getD ⟨x.significand, 0⟩

end Double

/-- How the digits of a number are laid out. -/
structure Layout where
  /-- The smallest power of ten of a leading digit that is written positionally. -/
  lowest : Int
  /-- The largest power of ten of a leading digit that is written positionally. -/
  highest : Int
  /-- Whether a whole number ends in a point and a zero. -/
  pointZero : Bool

namespace Layout

/-- Numbers in messages and saved documents: positional from `0.0001` up to `10 ^ 16`, always with
a point or an exponent. -/
def exact : Layout := ⟨-4, 15, true⟩

/-- Numbers in listings of bounds: positional from `0.0001` up to a million. -/
def general : Layout := ⟨-4, 5, false⟩

/-- The power of ten in scientific notation, with its sign and at least two digits. -/
def exponentText (e : Int) : List Char :=
  let digits := Nat.toDigits 10 e.natAbs
  'e' :: (if e < 0 then '-' else '+') :: (if digits.length < 2 then '0' :: digits else digits)

/-- Lays out the digits `ds`, of which the first stands for `10 ^ top`. -/
def write (layout : Layout) (ds : List Char) (top : Int) : List Char :=
  if layout.lowest ≤ top ∧ top ≤ layout.highest then
    if top < 0 then '0' :: '.' :: (List.replicate (-top - 1).toNat '0' ++ ds)
    else
      let whole := top.toNat + 1
      if ds.length ≤ whole then
        ds ++ List.replicate (whole - ds.length) '0' ++ (if layout.pointZero then ['.', '0'] else [])
      else ds.take whole ++ '.' :: ds.drop whole
  else
    match ds with
    | [] => exponentText top
    | [d] => d :: exponentText top
    | d :: rest => d :: '.' :: (rest ++ exponentText top)

/-- The shortest text of a finite number. -/
def double (layout : Layout) (x : Double) : String :=
  let body :=
    if x.index.val = 0 then layout.write ['0'] 0
    else
      let d := x.shortest
      let ds := Nat.toDigits 10 d.digits
      layout.write (Decimal.trimmed ds) (d.exponent + ds.length - 1)
  String.ofList (if x.negative then '-' :: body else body)

end Layout

/-- The shortest text that reads back as the number. -/
def Double.text (x : Double) : String := Layout.exact.double x

/-- The shortest text that reads back as the number. -/
def Binary64.text : Binary64 → String
  | .finite x => x.text
  | .infinite false => "inf"
  | .infinite true => "-inf"
  | .nan => "nan"

end DotWriter
