import DotWriter.Attribute.Check
import DotWriter.Proofs.Outcome
import Mathlib.Tactic.SplitIfs

/-!
# What a check admits

`Spec.Admits` says of a value what a specification asks of it: its kind, the bounds of numbers, and
the texts that are allowed.  `checkValue_eq_ok` is the specification of `checkValue`: it succeeds
exactly on the values that are admitted and can be written, and returns the text of the value.
-/

namespace DotWriter

/-- The exact value of an integer or of a number of the 64-bit format. -/
def Value.exact? : Value → Option Rat
  | .int n => some n.val
  | .double x => some x.toRat
  | _ => none

/-- The value is one of the kind: its own kind has the name of `k`, or `k` stands for the family of
all colors or of all labels. -/
def Kind.Covers (k : Kind) (v : Value) : Prop :=
  k.name = v.className ∨ (k = .color ∧ ∃ c, v = .color c) ∨ (k = .label ∧ ∃ n, v = .label n)

/-- What a specification asks of a value. -/
structure Spec.Admits (s : Spec) (v : Value) : Prop where
  kind : ∃ k ∈ s.kinds, k.Covers v
  low : ∀ q b, v.exact? = some q → s.low.bind Number.toRat? = some b → b ≤ q
  high : ∀ q b, v.exact? = some q → s.high.bind Number.toRat? = some b → q ≤ b
  choice : ∀ texts, s.choices = some texts → ∃ t ∈ texts, v.render = .ok t

/-! ### Kinds -/

namespace Kind

/-- The kinds of values. -/
def all : List Kind :=
  [bool, int, double, string, escString, label, point, pointList, rect, addDouble, addPoint,
    portPos, layerList, layerRange, viewPort, styleList, color, sides] ++ Enumeration.all.map member

theorem mem_all (k : Kind) : k ∈ all := by
  cases k with
  | member e => cases e <;> decide
  | _ => decide

theorem name_inj {k l : Kind} (h : k.name = l.name) : k = l := by
  have hall : ∀ a ∈ all, ∀ b ∈ all, a.name = b.name → a = b := by decide +kernel
  exact hall k (mem_all k) l (mem_all l) h

/-- The names of values that attributes never take are no names of kinds. -/
theorem name_ne (k : Kind) : k.name ≠ "Id" ∧ k.name ≠ "DoubleList" ∧ k.name ≠ "HtmlLabel" := by
  have hall : ∀ a ∈ all, a.name ≠ "Id" ∧ a.name ≠ "DoubleList" ∧ a.name ≠ "HtmlLabel" := by
    decide +kernel
  exact hall k (mem_all k)

theorem name_ne_color (k : Kind) (c : Color) : k.name ≠ c.className := by
  have hall : ∀ a ∈ all, a.name ∉ ["RGB", "RGBA", "HSV", "NamedColor", "ColorList"] := by
    decide +kernel
  intro h
  apply hall k (mem_all k)
  rw [h]
  rcases c with (_ | _ | _ | _) | _ <;> simp [Color.className, PlainColor.className]

/-- Apart from the families, the name of a kind is the name of its values. -/
theorem of?_eq_some_iff {v : Value} {k : Kind} (hc : ∀ c, v ≠ .color c) (hl : ∀ n, v ≠ .label n) :
    of? v = some k ↔ k.name = v.className := by
  have key : ∀ l, of? v = some l → l.name = v.className →
      (of? v = some k ↔ k.name = v.className) := by
    intro l hl hn
    rw [hl, ← hn, Option.some.injEq]
    exact ⟨fun h => by rw [h], fun h => (name_inj h).symm⟩
  -- identifiers, lists of numbers and contents of labels are no values of attributes
  cases v with
  | id x => simp [of?, Value.className, (name_ne k).1]
  | doubleList xs => simp [of?, Value.className, (name_ne k).2.1]
  | color c => exact absurd rfl (hc c)
  | label n => exact absurd rfl (hl n)
  | _ => exact key _ rfl rfl

theorem accepts_iff {k : Kind} {v : Value} : k.accepts v = true ↔ k.Covers v := by
  have hacc : k.accepts v = true ↔ of? v = some k := by simp [accepts]
  rw [hacc, Covers]
  by_cases hc : ∃ c, v = .color c
  · obtain ⟨c, rfl⟩ := hc
    have hne : color = k ↔ k = color := eq_comm
    simp [of?, Value.className, name_ne_color, hne]
  by_cases hl : ∃ n, v = .label n
  · obtain ⟨n, rfl⟩ := hl
    simp [of?, Value.className, (name_ne k).2.2, eq_comm]
  rw [of?_eq_some_iff (fun c h => hc ⟨c, h⟩) fun n h => hl ⟨n, h⟩]
  simp [hc, hl]

end Kind

/-! ### Bounds and texts -/

theorem Number.less_eq_true {x y : Number} :
    x.less y = true ↔ ∃ a b, x.toRat? = some a ∧ y.toRat? = some b ∧ a < b := by
  unfold Number.less
  cases x.toRat? <;> cases y.toRat? <;> simp

theorem Value.exact?_eq (v : Value) : v.exact? = v.number?.bind Number.toRat? := by
  cases v <;> rfl

namespace Spec

theorem accepts_iff {s : Spec} {v : Value} : s.accepts v = true ↔ ∃ k ∈ s.kinds, k.Covers v := by
  simp only [accepts, List.any_eq_true, Kind.accepts_iff]

theorem low_filter_eq_none {low : Option Number} {x : Number} :
    low.filter x.less = none ↔
      ∀ q b, x.toRat? = some q → low.bind Number.toRat? = some b → b ≤ q := by
  rw [Option.filter_eq_none_iff]
  constructor
  · intro h q b hq hb
    obtain ⟨y, hy, hyb⟩ := Option.bind_eq_some_iff.1 hb
    have := h y hy
    rw [Number.less_eq_true] at this
    exact Rat.not_lt.1 fun hlt => this ⟨q, b, hq, hyb, hlt⟩
  · intro h y hy hless
    obtain ⟨q, b, hq, hb, hlt⟩ := Number.less_eq_true.1 hless
    exact Rat.not_lt.2 (h q b hq (Option.bind_eq_some_iff.2 ⟨y, hy, hb⟩)) hlt

theorem high_filter_eq_none {high : Option Number} {x : Number} :
    high.filter (fun b => b.less x) = none ↔
      ∀ q b, x.toRat? = some q → high.bind Number.toRat? = some b → q ≤ b := by
  rw [Option.filter_eq_none_iff]
  constructor
  · intro h q b hq hb
    obtain ⟨y, hy, hyb⟩ := Option.bind_eq_some_iff.1 hb
    have := h y hy
    rw [Number.less_eq_true] at this
    exact Rat.not_lt.1 fun hlt => this ⟨b, q, hyb, hq, hlt⟩
  · intro h y hy hless
    obtain ⟨b, q, hb, hq, hlt⟩ := Number.less_eq_true.1 hless
    exact Rat.not_lt.2 (h q b hq (Option.bind_eq_some_iff.2 ⟨y, hy, hb⟩)) hlt

theorem checkBounds_eq_ok {s : Spec} {name : String} {x : Number} :
    s.checkBounds name x = .ok () ↔
      (∀ q b, x.toRat? = some q → s.low.bind Number.toRat? = some b → b ≤ q) ∧
      ∀ q b, x.toRat? = some q → s.high.bind Number.toRat? = some b → q ≤ b := by
  rw [← low_filter_eq_none, ← high_filter_eq_none]
  unfold checkBounds
  cases s.low.filter x.less <;> cases s.high.filter fun b => b.less x <;> simp

theorem checkChoices_eq_ok {s : Spec} {name : String} {v : Value} :
    s.checkChoices name v = .ok () ↔
      ∀ texts, s.choices = some texts → ∃ t ∈ texts, v.render = .ok t := by
  unfold checkChoices
  cases hs : s.choices with
  | none => simp
  | some texts =>
    simp only [Outcome.bind_eq_ok, Option.some.injEq, forall_eq']
    constructor
    · rintro ⟨t, hr, ht⟩
      split_ifs at ht with hmem
      exact ⟨t, by simpa using hmem, hr⟩
    · rintro ⟨t, hmem, hr⟩
      exact ⟨t, hr, by simp [hmem]⟩

end Spec

/-- The check of the bounds, which only numbers have to pass. -/
def Spec.checkNumber (s : Spec) (name : String) (v : Value) : Except Fault Unit :=
  match v.number? with
  | some x => s.checkBounds name x
  | none => .ok ()

theorem Spec.checkNumber_eq_ok {s : Spec} {name : String} {v : Value} :
    s.checkNumber name v = .ok () ↔
      (∀ q b, v.exact? = some q → s.low.bind Number.toRat? = some b → b ≤ q) ∧
      ∀ q b, v.exact? = some q → s.high.bind Number.toRat? = some b → q ≤ b := by
  rw [checkNumber, v.exact?_eq]
  cases v.number? with
  | none => simp
  | some x => exact checkBounds_eq_ok

theorem checkValue_eq {attr : AttributeId} {v : Value} (h : attr.spec.accepts v = true) :
    checkValue attr v = (do
      attr.spec.checkNumber attr.name v
      attr.spec.checkChoices attr.name v
      storedText attr v) := by
  simp only [checkValue, Spec.checkNumber, h, Bool.not_true, Bool.false_eq_true, if_false]
  cases v.number? <;> rfl

/-- **A value is accepted exactly when the specification admits it and it can be written**; the text
that is kept is the one it is written with. -/
theorem checkValue_eq_ok {attr : AttributeId} {v : Value} {text : String} :
    checkValue attr v = .ok text ↔ attr.spec.Admits v ∧ storedText attr v = .ok text := by
  by_cases ha : attr.spec.accepts v = true
  · rw [checkValue_eq ha]
    simp only [Outcome.bind_eq_ok]
    constructor
    · rintro ⟨_, hb, _, hc, ht⟩
      obtain ⟨hlow, hhigh⟩ := Spec.checkNumber_eq_ok.1 hb
      exact ⟨⟨Spec.accepts_iff.1 ha, hlow, hhigh, Spec.checkChoices_eq_ok.1 hc⟩, ht⟩
    · rintro ⟨⟨-, hlow, hhigh, hc⟩, ht⟩
      exact ⟨(), Spec.checkNumber_eq_ok.2 ⟨hlow, hhigh⟩, (), Spec.checkChoices_eq_ok.2 hc, ht⟩
  · constructor
    · intro h
      simp only [checkValue, ha, Bool.not_false, if_true] at h
      cases h
    · rintro ⟨h, -⟩
      exact absurd (Spec.accepts_iff.2 h.kind) ha

end DotWriter
