import DotWriter.Number
import DotWriter.Value

/-!
# Arithmetic on values

* `Operation` and `Value.calculate`: integers and numbers of the 64-bit format can be added,
  subtracted, multiplied and divided; a result has the kind of the first operand, so an integer
  takes no fraction;
* `Comparison` and `Value.compare`: only values of one of these two kinds have an order;
* `Value.equals`: values are equal if they are of one kind and their parts are equal as numbers and
  texts.
-/

namespace DotWriter

/-- The operations of arithmetic. -/
inductive Operation
  | add | sub | mul | div
deriving DecidableEq

/-- The comparisons. -/
inductive Comparison
  | less | lessEqual | greater | greaterEqual
deriving DecidableEq

namespace Operation

/-- The operation on numbers of the 64-bit format. -/
def binary64 : Operation → Binary64 → Binary64 → Binary64
  | add, x, y => x + y
  | sub, x, y => x - y
  | mul, x, y => x * y
  | div, x, y => x / y

/-- The quotient of an integer by a number of the 64-bit format: absolute values are divided and
the quotient is rounded down before it gets its sign. -/
def mixedQuotient (a : Int) (y : Double) : Binary64 :=
  match Binary64.ofInt a with
  | .finite x =>
    let q := x.abs.floorDiv y.abs
    if (a < 0) ≠ (y.toRat < 0) then -q else q
  | other => other

/-- The operation on an integer and another number.  The result has to be an integer. -/
def onInteger (op : Operation) (a : Integer) (b : Number) : Except Fault Integer :=
  match op, b with
  | add, .int n => Integer.of (a.val + n)
  | sub, .int n => Integer.of (a.val - n)
  | mul, .int n => Integer.of (a.val * n)
  | div, .int n =>
    if n = 0 then .error (.divisionByZero "Int") else Integer.of (Integer.truncatedQuotient a.val n)
  | div, .float (.finite y) =>
    if y.toRat = 0 then .error (.divisionByZero "Int")
    else .error (.notInteger (some (mixedQuotient a.val y).text))
  | op, .float y => .error (.notInteger (some (op.binary64 (Binary64.ofInt a.val) y).text))

/-- The operation on a number of the 64-bit format and another number.  An integer must not be too
large for the format. -/
def onDouble (op : Operation) (x : Double) (b : Number) : Except Fault Double :=
  if op = div ∧ b.toRat? = some 0 then .error (.divisionByZero "Double")
  else do Double.of "Double" (op.binary64 x (← b.rounded))

end Operation

namespace Value

/-- Whether arithmetic takes the value as its first operand. -/
def isNumber : Value → Bool
  | int _ | double _ => true
  | _ => false

/-- The number that an operand brings. -/
def operand : Value → Except Fault Number
  | int n => .ok (.int n.val)
  | double x => .ok (.float x)
  | addDouble a => .ok (.float a.value)
  | bool given => given.number
  | sides s => .ok (.int s.bits)
  | color (.plain (.hsv c)) => .ok c.value
  | member _ _ => .error .wrongOperand
  | _ => .error .noSuchPart

/-- Adds, subtracts, multiplies or divides. -/
def calculate (op : Operation) (v w : Value) : Except Fault Value :=
  match v with
  | int a => do return int (← op.onInteger a (← w.operand))
  | double x => do return double (← op.onDouble x (← w.operand))
  | _ => .error .wrongOperand

/-- The opposite number. -/
def negate : Value → Except Fault Value
  | int a => int <$> a.neg
  | double x => .ok (double (-x))
  | _ => .error .wrongOperand

/-- A number itself. -/
def same : Value → Except Fault Value
  | int a => .ok (int a)
  | double x => .ok (double x)
  | _ => .error .wrongOperand

end Value

namespace Comparison

/-- The comparison of exact numbers. -/
def holds : Comparison → Rat → Rat → Bool
  | less, x, y => x < y
  | lessEqual, x, y => x ≤ y
  | greater, x, y => y < x
  | greaterEqual, x, y => y ≤ x

end Comparison

/-- Compares two integers, or two numbers of the 64-bit format. -/
def Value.compare (c : Comparison) : Value → Value → Except Fault Bool
  | .int a, .int b => .ok (c.holds a.val b.val)
  | .double x, .double y => .ok (c.holds x.toRat y.toRat)
  | _, _ => .error .wrongOperand

/-- Whether two lists have equal items in the same places. -/
def listEquals {α : Type} (eq : α → α → Bool) : List α → List α → Bool
  | [], [] => true
  | x :: xs, y :: ys => eq x y && listEquals eq xs ys
  | _, _ => false

/-- Whether both are missing, or both are there and equal. -/
def optionEquals {α : Type} (eq : α → α → Bool) : Option α → Option α → Bool
  | none, none => true
  | some x, some y => eq x y
  | _, _ => false

/-- Whether two points are equal. -/
def Point.equals (p q : Point) : Bool :=
  p.x.equals q.x && p.y.equals q.y && optionEquals Double.equals p.z q.z && p.marked == q.marked

/-- Whether two finite numbers are equal. -/
def Number.equals (x y : Number) : Bool := x.toRat?.isSome && x.toRat? == y.toRat?

/-- Whether two colors of one kind are equal. -/
def PlainColor.equals : PlainColor → PlainColor → Bool
  | .hsv c, .hsv d =>
    c.hue.equals d.hue && c.saturation.equals d.saturation && c.value.equals d.value
  | c, d => c == d

/-- Whether two values are of one kind and equal. -/
def Value.equals : Value → Value → Bool
  | .id x, .id y => x == y
  | .bool a, .bool b => a.equals b
  | .int a, .int b => a == b
  | .double x, .double y => x.equals y
  | .string s, .string t => s == t
  | .escString s, .escString t => s == t
  | .point p, .point q => p.equals q
  | .pointList ps, .pointList qs => listEquals Point.equals ps qs
  | .rect r, .rect s =>
    r.lowerLeft.equals s.lowerLeft && r.upperRight.equals s.upperRight
  | .doubleList xs, .doubleList ys => listEquals Double.equals xs ys
  | .addDouble a, .addDouble b => a.value.equals b.value && a.additive == b.additive
  | .addPoint a, .addPoint b => a.x.equals b.x && a.y.equals b.y && a.additive == b.additive
  | .portPos p, .portPos q => p == q
  | .layerList l, .layerList m => l.literal == m.literal
  | .layerRange l, .layerRange m => l.literal == m.literal
  | .viewPort v, .viewPort w =>
    v.width.equals w.width && v.height.equals w.height && v.zoom.equals w.zoom &&
      match v.center, w.center with
      | .point p, .point q => p.equals q
      | c, d => c == d
  | .styleList ss, .styleList ts => ss == ts
  | .color (.plain c), .color (.plain d) => c.equals d
  | .color (.list l), .color (.list m) =>
    l.weightSum.equals m.weightSum && listEquals (fun a b =>
      a.1.equals b.1 && optionEquals Double.equals a.2 b.2) l.entries m.entries
  | .member e m, .member f n => e == f && m.text == n.text
  | .sides a, .sides b => a == b
  | _, _ => false

end DotWriter
