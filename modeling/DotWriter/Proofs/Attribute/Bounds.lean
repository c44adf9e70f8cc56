import DotWriter.Proofs.Attribute.Check
import DotWriter.Proofs.Document.Tree
import DotWriter.Proofs.Double.Written
import DotWriter.Proofs.Value.Alphabet

/-!
# Bounds and the texts of numbers

A number is held against its bounds as it is given, and what is kept of it is a text with two
places.  Rounding keeps the order, and the bounds are hundredths, so the text respects them too.

* `numeralValue?` : the exact number that a text stands for;
* `nearestHundredth` : a number rounded to hundredths, a half going to the even neighbour;
* `AttributeId.bound_numeral` : every bound is a hundredth, and messages show it as such;
* `storedNumber_laws` : **the text that is kept of a number respects the bounds as they are
  written**, and the texts of numbers keep their order.
-/

namespace DotWriter

/-! ### The number of a text -/

/-- The exact number that a text stands for, with places or without. -/
def numeralValue? (cs : List Char) : Option Rat :=
  decimalValue? cs <|> (readInteger? cs).map fun n => (n : Rat)

/-- The number rounded to hundredths, a half going to the even neighbour. -/
def nearestHundredth (q : Rat) : Rat := roundHalfEven (q * 100) / 100

theorem nearestHundredth_mono {p q : Rat} (h : p ≤ q) :
    nearestHundredth p ≤ nearestHundredth q := by
  have hround : (roundHalfEven (p * 100) : Rat) ≤ roundHalfEven (q * 100) := by
    exact_mod_cast roundHalfEven_mono (by linarith)
  unfold nearestHundredth
  linarith

theorem nearestHundredth_error (q : Rat) : |nearestHundredth q - q| ≤ 1 / 200 := by
  have herror := abs_le.1 (roundHalfEven_error (q * 100))
  unfold nearestHundredth
  rw [abs_le]
  constructor <;> linarith

theorem nearestHundredth_intCast (n : Int) : nearestHundredth n = n := by
  have hwhole : (n : Rat) * 100 = ((n * 100 : Int) : Rat) := by push_cast; rfl
  rw [nearestHundredth, hwhole, roundHalfEven_intCast]
  push_cast
  ring

theorem numeralValue?_fixed (x : Double) :
    numeralValue? x.fixed.toList = some (nearestHundredth x.toRat) := by
  rw [numeralValue?, Double.fixed, String.toList_ofList, Double.decimalValue?_fixedChars]
  rfl

/-- The text of an integer has no places. -/
theorem decimalValue?_toString (n : Int) : decimalValue? (toString n).toList = none := by
  obtain ⟨d, ds, hchars, hds, -⟩ := exists_toDigits n.natAbs
  have hrun := digitRun_digits hds (r := []) rfl
  rw [List.append_nil] at hrun
  rw [decimalValue?, toString_toList, hchars, List.map_cons,
    readSign_digits _ (hds d List.mem_cons_self)]
  simp only [← List.map_cons, hrun]

theorem numeralValue?_toString (n : Int) :
    numeralValue? (toString n).toList = some (nearestHundredth n) := by
  rw [numeralValue?, decimalValue?_toString, readInteger?_toString, nearestHundredth_intCast]
  rfl

theorem Value.numeralValue?_render {v : Value} {q : Rat} (hv : v.exact? = some q) :
    ∃ text, v.render = .ok text ∧ numeralValue? text.toList = some (nearestHundredth q) := by
  cases v with
  | int n =>
    cases hv
    exact ⟨_, rfl, numeralValue?_toString n.val⟩
  | double x =>
    cases hv
    exact ⟨_, rfl, numeralValue?_fixed x⟩
  | _ => cases hv

/-- A text between double quotes stands for a number. -/
def StandsFor (text : String) (x : Rat) : Prop :=
  ∃ body, text.toList = '"' :: (body ++ ['"']) ∧ numeralValue? body = some x

theorem storedText_standsFor {attr : AttributeId} {v : Value} {q : Rat} {text : String}
    (hv : v.exact? = some q) (h : storedText attr v = .ok text) :
    StandsFor text (nearestHundredth q) := by
  obtain ⟨body, hrender, hvalue⟩ := Value.numeralValue?_render hv
  have hdelimiters : v.hasDelimiters = false := by
    cases v with
    | string | escString | label => cases hv
    | _ => rfl
  rw [Value.storedText_eq hdelimiters, hrender] at h
  cases h
  exact ⟨body.toList, by simp, hvalue⟩

/-! ### Bounds -/

namespace AttributeId

/-- The bounds of the numbers that an attribute takes. -/
def bounds (attr : AttributeId) : List Number := attr.spec.low.toList ++ attr.spec.high.toList

/-- Every bound is finite, and its text stands for the hundredth that is nearest to it. -/
theorem bound_numeral {attr : AttributeId} {b : Number} (h : b ∈ attr.bounds) :
    ∃ r, b.toRat? = some r ∧ numeralValue? b.text.toList = some (nearestHundredth r) := by
  have hfound : b.toRat?.isSome = true ∧
      numeralValue? b.text.toList = b.toRat?.map nearestHundredth := by
    cases attr with
    | dot a =>
      have hall : ∀ a ∈ DotAttribute.all, ∀ b ∈ (dot a).bounds, b.toRat?.isSome = true ∧
          numeralValue? b.text.toList = b.toRat?.map nearestHundredth := by decide +kernel
      exact hall a a.mem_all b h
    | html a =>
      have hall : ∀ b ∈ (html a).bounds, b.toRat?.isSome = true ∧
          numeralValue? b.text.toList = b.toRat?.map nearestHundredth := by
        cases a <;> decide +kernel
      exact hall b h
  obtain ⟨r, hr⟩ := Option.isSome_iff_exists.1 hfound.1
  refine ⟨r, hr, ?_⟩
  rw [hfound.2, hr]
  rfl

/-- The least distance of two nodes, which is no number of the format. -/
example : (dot .nodesep).bounds.map (fun b => numeralValue? b.text.toList) = [some (1 / 50)] := by
  decide +kernel

end AttributeId

/-- A number lies between the bounds of a specification as they are written. -/
structure Spec.Contains (s : Spec) (x : Rat) : Prop where
  low : ∀ b, s.low = some b → ∃ y, numeralValue? b.text.toList = some y ∧ y ≤ x
  high : ∀ b, s.high = some b → ∃ y, numeralValue? b.text.toList = some y ∧ x ≤ y

/-- Rounding does not lead out of the bounds. -/
theorem Spec.Admits.contains {attr : AttributeId} {v : Value} {q : Rat} (hv : v.exact? = some q)
    (h : attr.spec.Admits v) : attr.spec.Contains (nearestHundredth q) := by
  constructor
  · intro b hb
    have hmem : b ∈ attr.bounds := by simp [AttributeId.bounds, hb]
    obtain ⟨r, hr, hvalue⟩ := AttributeId.bound_numeral hmem
    have hle : r ≤ q := h.low q r hv (by rw [hb]; exact hr)
    exact ⟨_, hvalue, nearestHundredth_mono hle⟩
  · intro b hb
    have hmem : b ∈ attr.bounds := by simp [AttributeId.bounds, hb]
    obtain ⟨r, hr, hvalue⟩ := AttributeId.bound_numeral hmem
    have hle : q ≤ r := h.high q r hv (by rw [hb]; exact hr)
    exact ⟨_, hvalue, nearestHundredth_mono hle⟩

/-- **What is kept of a number stands for the nearest hundredth, which lies between the bounds as
they are written; and the texts of numbers keep their order and are off by half a hundredth at
most.** -/
theorem storedNumber_laws :
    (∀ (attr : AttributeId) (v : Value) (q : Rat) (text : String), v.exact? = some q →
      checkValue attr v = .ok text →
        StandsFor text (nearestHundredth q) ∧ attr.spec.Contains (nearestHundredth q)) ∧
    ∀ a b : Double, a ≤ b → ∃ x y, numeralValue? a.fixed.toList = some x ∧
      numeralValue? b.fixed.toList = some y ∧ x ≤ y ∧ |x - a.toRat| ≤ 1 / 200 ∧
        |y - b.toRat| ≤ 1 / 200 := by
  refine ⟨fun attr v q text hv h => ?_, fun a b hab => ?_⟩
  · obtain ⟨hadmits, hstored⟩ := checkValue_eq_ok.1 h
    exact ⟨storedText_standsFor hv hstored, hadmits.contains hv⟩
  · exact ⟨_, _, numeralValue?_fixed a, numeralValue?_fixed b, nearestHundredth_mono hab,
      nearestHundredth_error a.toRat, nearestHundredth_error b.toRat⟩

/-- An angle a little above a half turn backwards, `-92159 / 512`. -/
def halfTurn : Double := ⟨true, Binary64.nearestIndex (92159 / 512), by decide +kernel⟩

/-- Labels turn by half a turn backwards at most, and an angle above this bound is written as the
bound. -/
theorem halfTurn_stored :
    Value.exact? (.double halfTurn) = some (-92159 / 512) ∧
      checkValue (.dot .labelangle) (.double halfTurn) = .ok "\"-180.00\"" ∧
      StandsFor "\"-180.00\"" (-180) ∧ (AttributeId.dot .labelangle).spec.Contains (-180) ∧
      halfTurn ≤ Double.zero ∧ ∃ x y, numeralValue? halfTurn.fixed.toList = some x ∧
        numeralValue? Double.zero.fixed.toList = some y ∧ x ≤ y ∧
        |x - halfTurn.toRat| ≤ 1 / 200 ∧ |y - Double.zero.toRat| ≤ 1 / 200 := by
  have hexact : Value.exact? (.double halfTurn) = some (-92159 / 512) := by decide +kernel
  have hcheck : checkValue (.dot .labelangle) (.double halfTurn) = .ok "\"-180.00\"" := by
    decide +kernel
  have hround : nearestHundredth (-92159 / 512) = -180 := by decide +kernel
  have hle : halfTurn ≤ Double.zero := by decide +kernel
  obtain ⟨hstands, hcontains⟩ := storedNumber_laws.1 _ _ _ _ hexact hcheck
  rw [hround] at hstands hcontains
  exact ⟨hexact, hcheck, hstands, hcontains, hle, storedNumber_laws.2 _ _ hle⟩

end DotWriter
