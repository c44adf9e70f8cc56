import DotWriter.Double.Basic
import DotWriter.Proofs.Double.Rounding
import Mathlib.Algebra.Order.Field.Basic

/-!
# The nearest number of the format

The magnitudes of the format are numbered from zero; `magnitudeAt` is the one of a number, also
beyond the largest finite one.

* `magnitudeAt_strictMono` : the numbering goes up;
* `nearestIndex_nearest` : **no magnitude is nearer to a number than the one that it is rounded
  to**;
* `Double.isExact_dyadic` : numbers with few binary digits are numbers of the format, and so
  `Double.exists_exact_around` finds some close to each small number;
* `Binary64.round_between` : **what is rounded does not leave an interval whose ends are numbers of
  the format**.
-/

namespace DotWriter

namespace Double

/-- The whole number that a magnitude is, in units of its last place. -/
def significandAt (i : Nat) : Nat := if i < blockSize then i else blockSize + i % blockSize

/-- The unit of the last place of a magnitude is two to this power. -/
def exponentAt (i : Nat) : Int := if i < blockSize then -1074 else (i / blockSize : Nat) - 1075

/-- The magnitude of the given number. -/
def magnitudeAt (i : Nat) : Rat := (significandAt i : Rat) * (2 : Rat) ^ exponentAt i

theorem magnitude_eq (x : Double) : x.magnitude = magnitudeAt x.index.val := rfl

theorem significandAt_lt (i : Nat) : significandAt i < 2 * blockSize := by
  unfold significandAt blockSize
  split_ifs <;> omega

theorem exponentAt_ge (i : Nat) : -1074 ≤ exponentAt i := by
  unfold exponentAt blockSize
  split_ifs <;> omega

theorem magnitudeAt_nonneg (i : Nat) : 0 ≤ magnitudeAt i := by
  unfold magnitudeAt
  positivity

theorem magnitudeAt_zero : magnitudeAt 0 = 0 := by simp [magnitudeAt, significandAt, blockSize]

/-- The magnitudes of a block in units of their last place.  The end of a block is the first of the
next one. -/
theorem magnitudeAt_block {m k : Nat} (hm : m ≤ 2 * blockSize) (hk : k = 0 ∨ blockSize ≤ m) :
    magnitudeAt (m + k * blockSize) = (m : Rat) * (2 : Rat) ^ ((k : Int) - 1074) := by
  unfold magnitudeAt
  by_cases hend : m = 2 * blockSize
  · have hs : significandAt (m + k * blockSize) = blockSize := by
      unfold significandAt
      unfold blockSize at hend ⊢
      split_ifs <;> omega
    have he : exponentAt (m + k * blockSize) = ((k : Int) - 1074) + 1 := by
      unfold exponentAt
      unfold blockSize at hend ⊢
      split_ifs <;> omega
    rw [hs, he, two_zpow_add_one, hend]
    push_cast
    ring
  · have hs : significandAt (m + k * blockSize) = m := by
      unfold significandAt
      unfold blockSize at hm hk hend ⊢
      split_ifs <;> omega
    have he : exponentAt (m + k * blockSize) = (k : Int) - 1074 := by
      unfold exponentAt
      unfold blockSize at hm hk hend ⊢
      split_ifs <;> omega
    rw [hs, he]

/-- Every number has a place in its block. -/
theorem exists_block (i : Nat) :
    ∃ m k, i = m + k * blockSize ∧ m < 2 * blockSize ∧ (k = 0 ∨ blockSize ≤ m) := by
  by_cases h : i < blockSize
  · exact ⟨i, 0, by omega, by omega, .inl rfl⟩
  · refine ⟨blockSize + i % blockSize, i / blockSize - 1, ?_, ?_, .inr (by omega)⟩ <;>
      (unfold blockSize at h ⊢; omega)

theorem magnitudeAt_lt_succ (i : Nat) : magnitudeAt i < magnitudeAt (i + 1) := by
  obtain ⟨m, k, rfl, hm, hk⟩ := exists_block i
  have hsucc : m + k * blockSize + 1 = (m + 1) + k * blockSize := by omega
  rw [hsucc, magnitudeAt_block hm.le hk, magnitudeAt_block hm (hk.imp_right (by omega))]
  have hunit := two_zpow_pos ((k : Int) - 1074)
  push_cast
  linarith

theorem magnitudeAt_strictMono : StrictMono magnitudeAt :=
  strictMono_nat_of_lt_succ magnitudeAt_lt_succ

theorem blockSize_eq : (blockSize : Rat) = (2 : Rat) ^ (52 : Int) := by
  unfold blockSize
  norm_num

theorem two_mul_blockSize_eq : ((2 * blockSize : Nat) : Rat) = (2 : Rat) ^ (53 : Int) := by
  unfold blockSize
  norm_num

/-- A number with at most fifty-three binary digits is a magnitude. -/
theorem exists_magnitudeAt {m : Nat} (hm : m ≤ 2 * blockSize) (k : Nat) :
    ∃ i, magnitudeAt i = (m : Rat) * (2 : Rat) ^ ((k : Int) - 1074) := by
  induction k generalizing m with
  | zero => exact ⟨m + 0 * blockSize, magnitudeAt_block hm (.inl rfl)⟩
  | succ k ih =>
    by_cases hblock : blockSize ≤ m
    · exact ⟨m + (k + 1) * blockSize, magnitudeAt_block hm (.inr hblock)⟩
    · -- a small number has a finer unit
      obtain ⟨i, hi⟩ := ih (m := 2 * m) (by omega)
      refine ⟨i, hi.trans ?_⟩
      have hunit : ((k + 1 : Nat) : Int) - 1074 = ((k : Int) - 1074) + 1 := by push_cast; ring
      rw [hunit, two_zpow_add_one]
      push_cast
      ring

end Double

open Double

namespace Binary64

/-- The unit to multiples of which a positive number is rounded, as a power of two. -/
def unitExponent (x : Rat) : Int := max (binaryLog x - 52) (-1074)

/-- A positive number in units of its last place. -/
theorem scaled_bounds {x : Rat} (hx : 0 < x) :
    (unitExponent x = -1074 ∨ (blockSize : Rat) ≤ x / (2 : Rat) ^ unitExponent x) ∧
      x / (2 : Rat) ^ unitExponent x ≤ ((2 * blockSize : Nat) : Rat) := by
  obtain ⟨hlow, hhigh⟩ := binaryLog_spec hx
  have hunit := two_zpow_pos (unitExponent x)
  constructor
  · by_cases h : -1074 ≤ binaryLog x - 52
    · right
      have he : unitExponent x = binaryLog x - 52 := max_eq_left h
      rw [le_div_iff₀ hunit, blockSize_eq, ← zpow_add₀ (by norm_num), he]
      have : (52 : Int) + (binaryLog x - 52) = binaryLog x := by ring
      rwa [this]
    · exact .inl (max_eq_right (by omega))
  · have hle : binaryLog x + 1 ≤ 53 + unitExponent x := by
      have := le_max_left (binaryLog x - 52) (-1074)
      unfold unitExponent
      omega
    rw [div_le_iff₀ hunit, two_mul_blockSize_eq, ← zpow_add₀ (by norm_num)]
    exact hhigh.le.trans (two_zpow_le hle)

/-- A positive number is rounded to a multiple of its unit. -/
theorem magnitudeAt_nearestIndex {x : Rat} (hx : 0 < x) :
    magnitudeAt (nearestIndex x) =
      (roundHalfEven (x / (2 : Rat) ^ unitExponent x) : Rat) * (2 : Rat) ^ unitExponent x := by
  obtain ⟨hlow, hhigh⟩ := scaled_bounds hx
  have hunit := two_zpow_pos (unitExponent x)
  have hnonneg : 0 ≤ roundHalfEven (x / (2 : Rat) ^ unitExponent x) :=
    le_roundHalfEven (by exact_mod_cast (div_pos hx hunit).le)
  obtain ⟨m, hm⟩ := Int.eq_ofNat_of_zero_le hnonneg
  have hge : -1074 ≤ unitExponent x := le_max_right _ _
  obtain ⟨k, hk⟩ : ∃ k : Nat, unitExponent x + 1074 = k :=
    Int.eq_ofNat_of_zero_le (by omega)
  have hindex : nearestIndex x = m + k * blockSize := by
    unfold nearestIndex
    rw [if_neg hx.ne']
    change (roundHalfEven (x / (2 : Rat) ^ unitExponent x)).toNat +
      (unitExponent x + 1074).toNat * blockSize = _
    rw [hm, hk]
    rfl
  have hm_le : m ≤ 2 * blockSize := by
    have := roundHalfEven_le (n := (2 * blockSize : Nat)) (by exact_mod_cast hhigh)
    omega
  have hm_ge : k = 0 ∨ blockSize ≤ m := by
    rcases hlow with h | h
    · exact .inl (by omega)
    · have := le_roundHalfEven (n := (blockSize : Nat)) (by exact_mod_cast h)
      exact .inr (by omega)
  have he : (k : Int) - 1074 = unitExponent x := by omega
  rw [hindex, magnitudeAt_block hm_le hm_ge, hm, he]
  rfl

theorem magnitudeAt_nearestIndex_zero : magnitudeAt (nearestIndex 0) = 0 := by
  rw [nearestIndex, if_pos rfl, magnitudeAt_zero]

/-- **No magnitude is nearer to a number than the one that it is rounded to.** -/
theorem nearestIndex_nearest {x : Rat} (hx : 0 ≤ x) (i : Nat) :
    |magnitudeAt (nearestIndex x) - x| ≤ |magnitudeAt i - x| := by
  rcases hx.eq_or_lt with rfl | hx
  · rw [magnitudeAt_nearestIndex_zero]
    simp
  rw [magnitudeAt_nearestIndex hx]
  have hunit := two_zpow_pos (unitExponent x)
  by_cases he : unitExponent x ≤ exponentAt i
  · -- the other magnitude is a multiple of the same unit
    obtain ⟨d, hd⟩ : ∃ d : Nat, exponentAt i - unitExponent x = d :=
      Int.eq_ofNat_of_zero_le (by omega)
    have hmultiple : magnitudeAt i =
        ((significandAt i * 2 ^ d : Nat) : Int) * (2 : Rat) ^ unitExponent x := by
      have : exponentAt i = (d : Int) + unitExponent x := by omega
      rw [magnitudeAt, this, zpow_add₀ (by norm_num), zpow_natCast]
      push_cast
      ring
    rw [hmultiple]
    exact roundHalfEven_scaled_nearest hunit x _
  · -- it lies below a multiple of the unit that is not larger than the number
    have hblock : (blockSize : Rat) * (2 : Rat) ^ unitExponent x ≤ x := by
      rcases (scaled_bounds hx).1 with h | h
      · exact absurd (exponentAt_ge i) (by omega)
      · exact (le_div_iff₀ hunit).1 h
    have hbelow : magnitudeAt i ≤ (blockSize : Rat) * (2 : Rat) ^ unitExponent x := by
      have hs : (significandAt i : Rat) ≤ 2 * blockSize := by
        exact_mod_cast (significandAt_lt i).le
      calc magnitudeAt i
          ≤ (2 * blockSize) * (2 : Rat) ^ exponentAt i :=
            mul_le_mul_of_nonneg_right hs (two_zpow_pos _).le
        _ = blockSize * (2 : Rat) ^ (exponentAt i + 1) := by rw [two_zpow_add_one]; ring
        _ ≤ blockSize * (2 : Rat) ^ unitExponent x :=
            mul_le_mul_of_nonneg_left (two_zpow_le (by omega)) (Nat.cast_nonneg _)
    have hnearest := roundHalfEven_scaled_nearest hunit x (blockSize : Int)
    rw [Int.cast_natCast, abs_of_nonpos (by linarith : (blockSize : Rat) * _ - x ≤ 0)] at hnearest
    rw [abs_of_nonpos (by linarith : magnitudeAt i - x ≤ 0)]
    linarith

/-- Rounding does not pass a magnitude upwards. -/
theorem magnitudeAt_nearestIndex_le {x : Rat} (hx : 0 ≤ x) {i : Nat} (h : x ≤ magnitudeAt i) :
    magnitudeAt (nearestIndex x) ≤ magnitudeAt i := by
  by_contra hlt
  have hnearest := nearestIndex_nearest hx i
  rw [abs_of_nonneg (by linarith), abs_of_nonneg (by linarith)] at hnearest
  linarith

/-- Rounding does not pass a magnitude downwards. -/
theorem le_magnitudeAt_nearestIndex {x : Rat} (hx : 0 ≤ x) {i : Nat} (h : magnitudeAt i ≤ x) :
    magnitudeAt i ≤ magnitudeAt (nearestIndex x) := by
  by_contra hlt
  have hnearest := nearestIndex_nearest hx i
  rw [abs_of_nonpos (by linarith), abs_of_nonpos (by linarith)] at hnearest
  linarith

theorem magnitudeAt_magnitudeCount : magnitudeAt magnitudeCount = (2 : Rat) ^ (1024 : Int) := by
  have hcount : magnitudeCount = blockSize + 2046 * blockSize := by decide
  rw [hcount, magnitudeAt_block (by omega) (.inr le_rfl), blockSize_eq, ← zpow_add₀ (by norm_num)]
  norm_num

theorem lt_magnitudeCount {i j : Nat} (h : magnitudeAt i ≤ magnitudeAt j)
    (hj : j < magnitudeCount) : i < magnitudeCount :=
  (magnitudeAt_strictMono.le_iff_le.1 h).trans_lt hj

end Binary64

open Binary64

/-! ### Finite numbers -/

namespace Double

/-- The exact value of a finite number of the format. -/
def IsExact (q : Rat) : Prop := ∃ x : Double, x.toRat = q

theorem isExact (x : Double) : IsExact x.toRat := ⟨x, rfl⟩

theorem abs_toRat (x : Double) : |x.toRat| = magnitudeAt x.index.val := by
  have hnonneg := magnitudeAt_nonneg x.index.val
  unfold toRat
  rw [magnitude_eq]
  split_ifs
  · rw [abs_neg, abs_of_nonneg hnonneg]
  · exact abs_of_nonneg hnonneg

/-- Numbers with at most fifty-three binary digits, of which few stand after the point, are
exact. -/
theorem isExact_dyadic {m j : Nat} (hm : m ≤ 2 * blockSize) (hj : j ≤ 1074) :
    IsExact ((m : Rat) / 2 ^ j) := by
  obtain ⟨i, hi⟩ := exists_magnitudeAt hm (1074 - j)
  have hvalue : magnitudeAt i = (m : Rat) / 2 ^ j := by
    have he : ((1074 - j : Nat) : Int) - 1074 = -(j : Int) := by omega
    rw [hi, he, zpow_neg, zpow_natCast, div_eq_mul_inv]
  have hlt : i < magnitudeCount := by
    refine magnitudeAt_strictMono.lt_iff_lt.1 ?_
    rw [hvalue, magnitudeAt_magnitudeCount]
    have hm' : (m : Rat) ≤ (2 : Rat) ^ (53 : Int) := by
      rw [← two_mul_blockSize_eq]
      exact_mod_cast hm
    calc (m : Rat) / 2 ^ j ≤ m := div_le_self (Nat.cast_nonneg m) (one_le_pow₀ (by norm_num))
      _ ≤ (2 : Rat) ^ (53 : Int) := hm'
      _ < (2 : Rat) ^ (1024 : Int) := zpow_lt_zpow_right₀ (by norm_num) (by norm_num)
  exact ⟨⟨false, i, hlt⟩, hvalue⟩

theorem isExact_natCast {n : Nat} (hn : n ≤ 2 * blockSize) : IsExact (n : Rat) := by
  simpa using isExact_dyadic hn (Nat.zero_le 1074)

/-- Exact numbers lie shortly below and above a small number. -/
theorem exists_exact_around {x : Rat} (h0 : 0 ≤ x) (h2 : x ≤ 2) : ∃ low high, IsExact low ∧
    IsExact high ∧ low ≤ x ∧ x ≤ high ∧ high = low + 1 / 65536 := by
  -- they are multiples of `2 ^ (-16)`
  obtain ⟨m, hm⟩ : ∃ m : Nat, (x * 65536).floor = m :=
    Int.eq_ofNat_of_zero_le (Rat.le_floor_iff.2 (by push_cast; positivity))
  have hle := Rat.floor_le (x * 65536)
  have hlt := Rat.lt_floor_add_one (x * 65536)
  rw [hm] at hle hlt
  push_cast at hle hlt
  have hsmall : m + 1 ≤ 2 * blockSize := by
    have : (m : Rat) ≤ 131072 := by linarith
    have hm' : m ≤ 131072 := by exact_mod_cast this
    exact (Nat.succ_le_succ hm').trans (by decide)
  have hlow := isExact_dyadic (m.le_succ.trans hsmall) (by decide : 16 ≤ 1074)
  have hhigh := isExact_dyadic hsmall (by decide : 16 ≤ 1074)
  push_cast at hhigh
  norm_num at hlow hhigh
  exact ⟨_, _, hlow, hhigh, by linarith, by linarith, by ring⟩

end Double

namespace Binary64

/-- A number whose magnitude is rounded to a finite one keeps its sign. -/
theorem round_eq {x : Rat} {zeroNegative : Bool} (h : nearestIndex |x| < magnitudeCount) :
    round x zeroNegative =
      .finite ⟨if x = 0 then zeroNegative else decide (x < 0), nearestIndex |x|, h⟩ := by
  have habs : (if x < 0 then -x else x) = |x| := by
    split_ifs with hx
    · exact (abs_of_neg hx).symm
    · exact (abs_of_nonneg (not_lt.1 hx)).symm
  unfold round
  simp only [habs, h, dif_pos]

/-- A sign that is put before a positive number is kept. -/
theorem round_signed {x : Rat} (hx : 0 < x) (negative : Bool)
    (h : nearestIndex x < magnitudeCount) :
    round (if negative then -x else x) negative = .finite ⟨negative, nearestIndex x, h⟩ := by
  cases negative with
  | true =>
    have habs : |(-x)| = x := by rw [abs_neg, abs_of_pos hx]
    simp only [if_true]
    rw [round_eq (by rwa [habs])]
    simp [habs, hx]
  | false =>
    have habs : |x| = x := abs_of_pos hx
    simp only [Bool.false_eq_true, if_false]
    rw [round_eq (by rwa [habs])]
    simp [habs, hx.le]

theorem round_of_nonneg {x : Rat} (hx : 0 ≤ x) (zeroNegative : Bool)
    (h : nearestIndex x < magnitudeCount) :
    ∃ y : Double, round x zeroNegative = .finite y ∧ y.toRat = magnitudeAt (nearestIndex x) := by
  have habs : |x| = x := abs_of_nonneg hx
  refine ⟨_, round_eq (by rwa [habs]), ?_⟩
  simp only [toRat, magnitude_eq, habs]
  rcases hx.eq_or_lt with rfl | hpos
  · simp [magnitudeAt_nearestIndex_zero]
  · simp [hpos.ne', not_lt.2 hx]

theorem round_of_neg {x : Rat} (hx : x < 0) (zeroNegative : Bool)
    (h : nearestIndex (-x) < magnitudeCount) :
    ∃ y : Double, round x zeroNegative = .finite y ∧
      y.toRat = -magnitudeAt (nearestIndex (-x)) := by
  have habs : |x| = -x := abs_of_neg hx
  refine ⟨_, round_eq (by rwa [habs]), ?_⟩
  simp [toRat, magnitude_eq, habs, hx, hx.ne]

/-- **What is rounded does not leave an interval whose ends are exact**, and so it is finite. -/
theorem round_between {x low high : Rat} (hlow : low ≤ x) (hhigh : x ≤ high)
    (hl : IsExact low) (hh : IsExact high) (zeroNegative : Bool) :
    ∃ y : Double, round x zeroNegative = .finite y ∧ low ≤ y.toRat ∧ y.toRat ≤ high := by
  obtain ⟨l, rfl⟩ := hl
  obtain ⟨h, rfl⟩ := hh
  have habsl := abs_toRat l
  have habsh := abs_toRat h
  by_cases hx : x < 0
  · have hneg : 0 ≤ -x := by linarith
    -- the lower end has the larger magnitude
    rw [abs_of_neg (by linarith)] at habsl
    have hle := magnitudeAt_nearestIndex_le hneg (i := l.index.val) (by linarith)
    obtain ⟨y, hy, hvalue⟩ := round_of_neg hx zeroNegative (lt_magnitudeCount hle l.index.isLt)
    refine ⟨y, hy, by linarith, ?_⟩
    by_cases hh : h.toRat < 0
    · rw [abs_of_neg hh] at habsh
      have hge := le_magnitudeAt_nearestIndex hneg (i := h.index.val) (by linarith)
      linarith
    · have := magnitudeAt_nonneg (nearestIndex (-x))
      linarith
  · have hpos : 0 ≤ x := not_lt.1 hx
    rw [abs_of_nonneg (by linarith)] at habsh
    have hle := magnitudeAt_nearestIndex_le hpos (i := h.index.val) (by linarith)
    obtain ⟨y, hy, hvalue⟩ := round_of_nonneg hpos zeroNegative (lt_magnitudeCount hle h.index.isLt)
    refine ⟨y, hy, ?_, by linarith⟩
    by_cases hl : l.toRat < 0
    · have := magnitudeAt_nonneg (nearestIndex x)
      linarith
    · rw [abs_of_nonneg (not_lt.1 hl)] at habsl
      have hge := le_magnitudeAt_nearestIndex hpos (i := l.index.val) (by linarith)
      linarith

/-- What is exact is not changed. -/
theorem round_exact {x : Rat} (hx : IsExact x) (zeroNegative : Bool) :
    ∃ y : Double, round x zeroNegative = .finite y ∧ y.toRat = x := by
  obtain ⟨y, hy, hlow, hhigh⟩ := round_between le_rfl le_rfl hx hx zeroNegative
  exact ⟨y, hy, le_antisymm hhigh hlow⟩

end Binary64

end DotWriter
