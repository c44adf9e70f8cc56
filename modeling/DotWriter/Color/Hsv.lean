import DotWriter.Number

/-!
# Hue, saturation and value

`sectorChannels` converts a color given by hue, saturation and value to red, green and blue.  The
hue selects one of six sectors of the color circle; the sector decides which channel gets the
chroma, which one the intermediate amount and which one nothing, and all three are lifted to the
requested value.  Channels are scaled by 255 and cut to whole numbers.

The conversion is stated for any `Component`, that is, for any numbers with the operations it
needs.  Documents use the one on `Binary64`, where every operation rounds; the one on `Rat` is the
exact conversion.
-/

namespace DotWriter

/-- The operations that the conversion needs. -/
class Component (α : Type) where
  /-- A whole number. -/
  ofNat : Nat → α
  add : α → α → α
  sub : α → α → α
  mul : α → α → α
  div : α → α → α
  /-- What is left after taking away whole multiples of the second number. -/
  rest : α → α → α
  abs : α → α
  lt : α → α → Bool
  /-- The whole number below a number that is not negative. -/
  whole : α → Int

instance : Component Rat where
  ofNat n := n
  add := (· + ·)
  sub := (· - ·)
  mul := (· * ·)
  div := (· / ·)
  rest x y := x - y * (x / y).floor
  abs x := if x < 0 then -x else x
  lt x y := x < y
  whole := Rat.floor

namespace Binary64

/-- The remainder of finite numbers. -/
def rest : Binary64 → Binary64 → Binary64
  | .finite x, .finite y => x.remainder y
  | _, _ => .nan

/-- Distance from zero. -/
def abs : Binary64 → Binary64
  | .finite x => .finite x.abs
  | .infinite _ => .infinite false
  | .nan => .nan

/-- Whether the first of two numbers is smaller. -/
def less : Binary64 → Binary64 → Bool
  | .finite x, .finite y => x < y
  | .infinite s, .infinite t => s && !t
  | .infinite s, .finite _ => s
  | .finite _, .infinite s => !s
  | _, _ => false

/-- The whole number below a finite number. -/
def whole : Binary64 → Int
  | .finite x => x.toRat.floor
  | _ => 0

end Binary64

instance : Component Binary64 where
  ofNat n := Binary64.ofInt n
  add := (· + ·)
  sub := (· - ·)
  mul := (· * ·)
  div := (· / ·)
  rest := Binary64.rest
  abs := Binary64.abs
  lt := Binary64.less
  whole := Binary64.whole

open Component in
/-- Red, green and blue of a color whose hue, saturation and value lie between zero and one.  A
hue of one is a hue of zero. -/
def sectorChannels {α : Type} [Component α] (hue saturation value : α) : Int × Int × Int :=
  let zero : α := ofNat 0
  let one : α := ofNat 1
  let h := mul (if lt hue one then hue else zero) (ofNat 360)
  let chroma := mul value saturation
  let between := mul chroma (sub one (abs (sub (rest (div h (ofNat 60)) (ofNat 2)) one)))
  let lift := sub value chroma
  let (r, g, b) :=
    if lt h (ofNat 60) then (chroma, between, zero)
    else if lt h (ofNat 120) then (between, chroma, zero)
    else if lt h (ofNat 180) then (zero, chroma, between)
    else if lt h (ofNat 240) then (zero, between, chroma)
    else if lt h (ofNat 300) then (between, zero, chroma)
    else (chroma, zero, between)
  let scale (x : α) := whole (mul (add x lift) (ofNat 255))
  (scale r, scale g, scale b)

end DotWriter
