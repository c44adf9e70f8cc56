import DotWriter.Double.Text
import DotWriter.Proofs.Double.Nearest
import DotWriter.Proofs.Text.Numeral

/-!
# Reading fixed-point text

A number is written with two places, and reading the text gives a number near to it that is
written in the same way.

* `Double.exists_fixedChars` : what the text of a number is made of;
* `Double.readDouble?_fixedChars` : what it says;
* `Double.reread` : the number that is read back;
* `Double.readDouble?_reread` : **the text of a number is read as a finite number of the same
  text**.
-/

namespace DotWriter

open Binary64

namespace Double

/-- The text of a number is its sign, and the digits of its hundredths with a point among them. -/
theorem exists_fixedChars (x : Double) : ∃ d ds fs, (∀ e ∈ d :: ds, e < 10) ∧ (∀ e ∈ fs, e < 10) ∧
    fs.length = 2 ∧ ofDigits 10 (d :: ds ++ fs) = x.hundredths ∧
    x.fixedChars =
      signChars x.negative ++ (d :: ds).map Nat.digitChar ++ '.' :: fs.map Nat.digitChar := by
  obtain ⟨d, ds, hchars, hds, hvalue⟩ := exists_toDigits (x.hundredths / 100)
  refine ⟨d, ds, [x.hundredths % 100 / 10 % 10, x.hundredths % 100 % 10], hds, ?_, rfl, ?_, ?_⟩
  · intro e he
    simp only [List.mem_cons, List.mem_nil_iff, or_false] at he
    omega
  · rw [← List.singleton_append (l := [x.hundredths % 100 % 10]), ← List.append_assoc,
      ofDigits_concat, ofDigits_concat, hvalue]
    omega
  · rw [← hchars]
    rfl

/-- The text of a number is read as its hundredths. -/
theorem readDouble?_fixedChars (x : Double) :
    readDouble? x.fixedChars = some (scaled x.negative x.hundredths (-2)) := by
  obtain ⟨d, ds, fs, hds, hfs, hlength, hvalue, hchars⟩ := x.exists_fixedChars
  rw [hchars, readDouble?_decimal x.negative hds hfs, hvalue, hlength]
  rfl

/-! ### Hundredths -/

theorem roundHalfEven_hundredths (x : Double) :
    roundHalfEven (x.magnitude * 100) = (x.hundredths : Int) := by
  have hnonneg : 0 ≤ roundHalfEven (x.magnitude * 100) := by
    refine le_roundHalfEven ?_
    have := magnitudeAt_nonneg x.index.val
    rw [magnitude_eq]
    push_cast
    positivity
  rw [hundredths, Int.toNat_of_nonneg hnonneg]

theorem magnitude_le (x : Double) : x.magnitude ≤ magnitudeAt (magnitudeCount - 1) :=
  magnitudeAt_strictMono.monotone (Nat.le_sub_one_of_lt x.index.isLt)

/-- The largest magnitude is a whole number. -/
theorem exists_top : ∃ t : Nat, magnitudeAt (magnitudeCount - 1) = t ∧ t < 2 ^ 1024 := by
  have htop : magnitudeCount - 1 = (2 * blockSize - 1) + 2045 * blockSize := by decide
  have hvalue : magnitudeAt (magnitudeCount - 1) =
      ((2 * blockSize - 1 : Nat) : Rat) * 2 ^ (971 : Int) := by
    rw [htop, magnitudeAt_block (by omega) (.inr (by decide))]
    norm_num
  refine ⟨(2 * blockSize - 1) * 2 ^ 971, ?_, ?_⟩
  · rw [hvalue, Nat.cast_mul, Nat.cast_pow]
    rfl
  · decide +kernel

theorem hundredths_le (x : Double) {t : Nat} (ht : magnitudeAt (magnitudeCount - 1) = t) :
    x.hundredths ≤ t * 100 := by
  have hle : x.magnitude * 100 ≤ ((t * 100 : Nat) : Int) := by
    have := x.magnitude_le
    rw [ht] at this
    push_cast
    linarith
  have := roundHalfEven_le hle
  rw [roundHalfEven_hundredths] at this
  exact_mod_cast this

/-- The number nearest to the hundredths of a number has the same hundredths. -/
theorem hundredths_nearest (x : Double) (hx : x.hundredths ≠ 0) :
    nearestIndex ((x.hundredths : Rat) / 100) < magnitudeCount ∧
      ∀ y : Double, y.index.val = nearestIndex ((x.hundredths : Rat) / 100) →
        y.hundredths = x.hundredths := by
  obtain ⟨t, ht, -⟩ := exists_top
  have hnonneg : (0 : Rat) ≤ (x.hundredths : Rat) / 100 := by positivity
  refine ⟨?_, fun y hy => ?_⟩
  · refine lt_magnitudeCount (magnitudeAt_nearestIndex_le hnonneg ?_)
      (Nat.sub_lt (by decide : 0 < magnitudeCount) Nat.one_pos)
    have : (x.hundredths : Rat) ≤ t * 100 := by exact_mod_cast x.hundredths_le ht
    rw [ht]
    linarith
  · have herror := roundHalfEven_error (x.magnitude * 100)
    rw [roundHalfEven_hundredths, Int.cast_natCast] at herror
    have hnearest := nearestIndex_nearest hnonneg x.index.val
    rw [← hy, ← magnitude_eq, ← magnitude_eq] at hnearest
    -- distances in hundredths
    have hscale : ∀ m : Rat, |(x.hundredths : Rat) - m * 100| =
        |m - (x.hundredths : Rat) / 100| * 100 := by
      intro m
      rw [abs_sub_comm, ← abs_of_pos (by norm_num : (0 : Rat) < 100), ← abs_mul,
        abs_of_pos (by norm_num : (0 : Rat) < 100)]
      congr 1
      ring
    rw [hscale] at herror
    have heq : roundHalfEven (y.magnitude * 100) = (x.hundredths : Int) := by
      refine roundHalfEven_eq ?_ fun hhalf => ?_
      · rw [Int.cast_natCast, hscale]
        linarith
      · rw [Int.cast_natCast, hscale] at hhalf
        -- then the number itself lies half-way
        rw [← roundHalfEven_hundredths]
        refine roundHalfEven_even ?_
        rw [roundHalfEven_hundredths, Int.cast_natCast, hscale]
        linarith
    rw [roundHalfEven_hundredths] at heq
    exact_mod_cast heq

/-! ### Reading -/

theorem fixedChars_congr {x y : Double} (hnegative : y.negative = x.negative)
    (hhundredths : y.hundredths = x.hundredths) : y.fixedChars = x.fixedChars := by
  unfold fixedChars
  rw [hnegative, hhundredths]

theorem hundredths_zero (negative : Bool) : hundredths { zero with negative := negative } = 0 := by
  have hzero : magnitude { zero with negative := negative } = 0 := magnitudeAt_zero
  rw [hundredths, hzero, zero_mul, ← Int.cast_zero, roundHalfEven_intCast]
  rfl

/-- The hundredths of a number are in the range that is computed. -/
theorem hundredths_length (x : Double) : decimalLength x.hundredths ≤ 402 := by
  obtain ⟨t, ht, hlt⟩ := exists_top
  have hle := x.hundredths_le ht
  rw [decimalLength, Nat.length_toDigits_le_iff (by decide) (by decide)]
  have hpow : 2 ^ 1024 * 100 < 10 ^ 402 := by decide +kernel
  omega

theorem exists_reread (x : Double) : ∃ y : Double, scaled x.negative x.hundredths (-2) = .finite y ∧
    y.fixedChars = x.fixedChars := by
  by_cases hx : x.hundredths = 0
  · refine ⟨{ zero with negative := x.negative }, ?_, ?_⟩
    · simp [scaled, hx]
    · exact fixedChars_congr rfl (by rw [hundredths_zero, hx])
  · obtain ⟨hlt, hsame⟩ := x.hundredths_nearest hx
    have hpos : (0 : Rat) < (x.hundredths : Rat) / 100 := by positivity
    have hvalue : (x.hundredths : Rat) * (10 : Rat) ^ (-2 : Int) = (x.hundredths : Rat) / 100 := by
      norm_num
      ring
    have hlow : ¬ (-2 : Int) + decimalLength x.hundredths < -400 := by omega
    have hhigh : ¬ (400 : Int) < -2 + decimalLength x.hundredths := by
      have := x.hundredths_length
      omega
    refine ⟨⟨x.negative, nearestIndex ((x.hundredths : Rat) / 100), hlt⟩, ?_, ?_⟩
    · simp only [scaled, hx, hlow, hhigh, or_self, if_false, hvalue]
      exact round_signed hpos x.negative hlt
    · exact fixedChars_congr rfl (hsame _ rfl)

/-- The number that is read back from the text of a number. -/
def reread (x : Double) : Double := (scaled x.negative x.hundredths (-2)).finite?.getD x

/-- **The text of a number is read as a finite number of the same text.** -/
theorem readDouble?_reread (x : Double) :
    readDouble? x.fixedChars = some (.finite x.reread) ∧ x.reread.fixedChars = x.fixedChars := by
  obtain ⟨y, hy, hsame⟩ := x.exists_reread
  have hreread : x.reread = y := by rw [reread, hy]; rfl
  rw [readDouble?_fixedChars, hy, hreread]
  exact ⟨rfl, hsame⟩

end Double

end DotWriter
