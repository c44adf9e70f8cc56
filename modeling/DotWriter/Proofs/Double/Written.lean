import DotWriter.Proofs.Double.Fixed

/-!
# The exact value of a text

A text with two places stands for an exact value, which is not read into the format.

* `Double.written` : the number rounded to hundredths, a half going to the even neighbour;
* `decimalValue?_fixedChars` : **the text of a number says exactly this**;
* `Double.exists_halfHundredths` : what a weight is written with, but for a half of a hundredth if it
  was rounded up, is a whole number of halves and does not exceed the weight.
-/

namespace DotWriter

/-- The exact value of a sign, digits, a point and digits. -/
def decimalValue? (cs : List Char) : Option Rat :=
  let (negative, cs) := readSign cs
  match digitRun digitValue? cs with
  | (whole, '.' :: cs) =>
    match digitRun digitValue? cs with
    | (places, []) =>
      let x := (ofDigits 10 (whole ++ places) : Rat) / 10 ^ places.length
      some (if negative then -x else x)
    | _ => none
  | _ => none

theorem roundHalfEven_neg (x : Rat) : roundHalfEven (-x) = -roundHalfEven x := by
  have hdistance : |((-roundHalfEven x : Int) : Rat) - -x| = |(roundHalfEven x : Rat) - x| := by
    rw [Int.cast_neg, neg_sub_neg, abs_sub_comm]
  refine roundHalfEven_eq ?_ fun h => ?_
  · rw [hdistance]
    exact roundHalfEven_error x
  · rw [hdistance] at h
    have := roundHalfEven_even h
    omega

namespace Double

/-- The exact value that is written: the number rounded to hundredths. -/
def written (x : Double) : Rat := roundHalfEven (x.toRat * 100) / 100

theorem written_eq (x : Double) :
    x.written = if x.negative then -((x.hundredths : Rat) / 100) else (x.hundredths : Rat) / 100 := by
  unfold written toRat
  split_ifs
  · rw [neg_mul, roundHalfEven_neg, roundHalfEven_hundredths]
    push_cast
    ring
  · rw [roundHalfEven_hundredths]
    rfl

/-- **The text of a number says exactly what is written.** -/
theorem decimalValue?_fixedChars (x : Double) : decimalValue? x.fixedChars = some x.written := by
  obtain ⟨d, ds, fs, hds, hfs, hlength, hvalue, hchars⟩ := x.exists_fixedChars
  have hwhole := digitRun_digits hds (r := '.' :: fs.map Nat.digitChar) rfl
  have hplaces : digitRun digitValue? (fs.map Nat.digitChar) = (fs, []) := by
    cases fs with
    | nil => rfl
    | cons f fs => simpa using digitRun_digits hfs (r := []) rfl
  have hsign := readSign_digits x.negative (hds d List.mem_cons_self)
    (ds.map Nat.digitChar ++ '.' :: fs.map Nat.digitChar)
  rw [← List.cons_append, ← List.map_cons] at hsign
  rw [decimalValue?, hchars, List.append_assoc, hsign]
  simp only [hwhole, hplaces, hvalue, hlength, written_eq]
  norm_num

/-- Whether a number is written as a larger one. -/
def RoundsUp (x : Double) : Prop := x.toRat < x.written

instance (x : Double) : Decidable x.RoundsUp := inferInstanceAs (Decidable (x.toRat < x.written))

/-- What is written for a number that is not negative is a whole number of half hundredths which the
number reaches, and another one if the number is rounded up. -/
theorem exists_halfHundredths {x : Double} (hx : 0 ≤ x.toRat) : ∃ k : Nat,
    x.written = ((k : Rat) + if x.RoundsUp then 1 else 0) / 200 ∧ (k : Rat) / 200 ≤ x.toRat := by
  have herror := abs_le.1 (roundHalfEven_error (x.toRat * 100))
  obtain ⟨n, hn⟩ : ∃ n : Nat, roundHalfEven (x.toRat * 100) = n :=
    Int.eq_ofNat_of_zero_le (le_roundHalfEven (by push_cast; linarith))
  have hwritten : x.written = (n : Rat) / 100 := by rw [written, hn, Int.cast_natCast]
  rw [hn, Int.cast_natCast] at herror
  by_cases hup : x.RoundsUp
  · -- a number that is not negative is not rounded up to zero
    have hpos : 0 < n := by
      unfold RoundsUp at hup
      rw [hwritten] at hup
      have : (0 : Rat) < n := by linarith
      exact_mod_cast this
    obtain ⟨m, rfl⟩ : ∃ m, n = m + 1 := ⟨n - 1, by omega⟩
    refine ⟨2 * m + 1, ?_, ?_⟩
    · rw [hwritten, if_pos hup]
      push_cast
      ring
    · push_cast at herror ⊢
      linarith
  · refine ⟨2 * n, ?_, ?_⟩
    · rw [hwritten, if_neg hup]
      push_cast
      ring
    · have := not_lt.1 hup
      rw [hwritten] at this
      push_cast
      linarith

end Double

end DotWriter
