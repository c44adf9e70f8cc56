import DotWriter.Double.Basic
import Mathlib.Algebra.Order.Field.Power
import Mathlib.Data.Rat.Cast.Order
import Mathlib.Tactic.FieldSimp
import Mathlib.Tactic.Linarith
import Mathlib.Tactic.Ring
import Mathlib.Tactic.SplitIfs

/-!
# Rounding to whole numbers

* `roundHalfEven_nearest` : no whole number is nearer than the rounded one, which
  `roundHalfEven_eq` characterises;
* `roundHalfEven_scaled_nearest` : the same for the multiples of a number;
* `binaryLog_spec` : a positive number lies between two powers of two.
-/

namespace DotWriter

/-! ### Half to even -/

theorem roundHalfEven_error (x : Rat) : |(roundHalfEven x : Rat) - x| ≤ 1 / 2 := by
  have hlow := Rat.floor_le x
  have hhigh := Rat.lt_floor_add_one x
  push_cast at hhigh
  unfold roundHalfEven
  dsimp only
  split_ifs <;> push_cast <;> rw [abs_le] <;> constructor <;> linarith

/-- A number half-way between two whole numbers goes to the even one. -/
theorem roundHalfEven_even {x : Rat} (h : |(roundHalfEven x : Rat) - x| = 1 / 2) :
    roundHalfEven x % 2 = 0 := by
  have hlow := Rat.floor_le x
  have hhigh := Rat.lt_floor_add_one x
  push_cast at hhigh
  unfold roundHalfEven at h ⊢
  dsimp only at h ⊢
  split_ifs at h ⊢ with hbelow habove heven
  · rw [abs_of_nonpos (by linarith)] at h
    linarith
  · push_cast at h
    rw [abs_of_nonneg (by linarith)] at h
    linarith
  · exact heven
  · omega

/-- Two whole numbers that differ are at least one apart. -/
theorem one_le_abs_sub {m n : Int} (h : m ≠ n) : (1 : Rat) ≤ |(m : Rat) - n| := by
  have : (1 : Int) ≤ |m - n| := Int.one_le_abs (sub_ne_zero.2 h)
  exact_mod_cast this

theorem roundHalfEven_nearest (x : Rat) (n : Int) :
    |(roundHalfEven x : Rat) - x| ≤ |(n : Rat) - x| := by
  by_cases hn : roundHalfEven x = n
  · rw [hn]
  have hone := one_le_abs_sub hn
  have herror := roundHalfEven_error x
  have htriangle := abs_sub_le (roundHalfEven x : Rat) x n
  rw [abs_sub_comm x] at htriangle
  linarith

/-- What lies within a half of an even number, or strictly within a half of an odd one, is rounded
to it. -/
theorem roundHalfEven_eq {x : Rat} {n : Int} (h : |(n : Rat) - x| ≤ 1 / 2)
    (heven : |(n : Rat) - x| = 1 / 2 → n % 2 = 0) : roundHalfEven x = n := by
  by_contra hn
  have hone := one_le_abs_sub hn
  have hnearest := roundHalfEven_nearest x n
  have htriangle := abs_sub_le (roundHalfEven x : Rat) x n
  rw [abs_sub_comm x] at htriangle
  -- both are half-way, and only one of two neighbours is even
  have hhalf : |(n : Rat) - x| = 1 / 2 := by linarith
  have hhalf' : |(roundHalfEven x : Rat) - x| = 1 / 2 := by linarith
  have hsum : |(roundHalfEven x : Rat) - n| = 1 := by linarith
  have hsum' : |roundHalfEven x - n| = 1 := by exact_mod_cast hsum
  have h₁ := heven hhalf
  have h₂ := roundHalfEven_even hhalf'
  rcases (abs_eq zero_le_one).1 hsum' with h | h <;> omega

@[simp] theorem roundHalfEven_intCast (n : Int) : roundHalfEven (n : Rat) = n :=
  roundHalfEven_eq (by simp) (by simp)

theorem le_roundHalfEven {x : Rat} {n : Int} (h : (n : Rat) ≤ x) : n ≤ roundHalfEven x := by
  by_contra hlt
  have hlt' : (roundHalfEven x : Rat) < n := by exact_mod_cast not_le.1 hlt
  have hnearest := roundHalfEven_nearest x n
  rw [abs_of_nonpos (by linarith), abs_of_nonpos (by linarith)] at hnearest
  linarith

theorem roundHalfEven_le {x : Rat} {n : Int} (h : x ≤ (n : Rat)) : roundHalfEven x ≤ n := by
  by_contra hlt
  have hlt' : (n : Rat) < roundHalfEven x := by exact_mod_cast not_le.1 hlt
  have hnearest := roundHalfEven_nearest x n
  rw [abs_of_nonneg (by linarith), abs_of_nonneg (by linarith)] at hnearest
  linarith

/-- Rounding keeps the order: neither number is moved by more than a half, and two whole numbers in
the wrong order are one apart. -/
theorem roundHalfEven_mono {x y : Rat} (h : x ≤ y) : roundHalfEven x ≤ roundHalfEven y := by
  by_contra hlt
  have hone : (roundHalfEven y : Rat) + 1 ≤ roundHalfEven x := by exact_mod_cast not_le.1 hlt
  have hx := abs_le.1 (roundHalfEven_error x)
  have hy := abs_le.1 (roundHalfEven_error y)
  obtain rfl : x = y := le_antisymm h (by linarith)
  linarith

/-- Rounding the quotient by a unit finds the nearest multiple of the unit. -/
theorem roundHalfEven_scaled_nearest {unit : Rat} (hunit : 0 < unit) (x : Rat) (n : Int) :
    |(roundHalfEven (x / unit) : Rat) * unit - x| ≤ |(n : Rat) * unit - x| := by
  have hscale : ∀ a : Rat, |a * unit - x| = |a - x / unit| * unit := by
    intro a
    rw [← abs_of_pos hunit, ← abs_mul, abs_of_pos hunit, sub_mul, div_mul_cancel₀ _ hunit.ne']
  rw [hscale, hscale]
  exact mul_le_mul_of_nonneg_right (roundHalfEven_nearest _ n) hunit.le

/-! ### Powers of two -/

theorem two_zpow_pos (e : Int) : (0 : Rat) < (2 : Rat) ^ e := by positivity

theorem two_zpow_add_one (e : Int) : (2 : Rat) ^ (e + 1) = 2 * (2 : Rat) ^ e := by
  rw [zpow_add_one₀ (by norm_num), mul_comm]

theorem two_zpow_le {d e : Int} (h : d ≤ e) : (2 : Rat) ^ d ≤ (2 : Rat) ^ e :=
  zpow_le_zpow_right₀ (by norm_num) h

/-- A whole number lies between two powers of two. -/
theorem log2_spec {n : Nat} (hn : n ≠ 0) :
    (2 : Rat) ^ (n.log2 : Int) ≤ n ∧ (n : Rat) < (2 : Rat) ^ ((n.log2 : Int) + 1) := by
  constructor
  · rw [zpow_natCast]
    exact_mod_cast Nat.log2_self_le hn
  · rw [← Nat.cast_succ, zpow_natCast]
    exact_mod_cast Nat.lt_log2_self

/-- A positive number lies between two powers of two. -/
theorem binaryLog_spec {x : Rat} (hx : 0 < x) :
    (2 : Rat) ^ binaryLog x ≤ x ∧ x < (2 : Rat) ^ (binaryLog x + 1) := by
  obtain ⟨n, hn⟩ : ∃ n : Nat, x.num = n := Int.eq_ofNat_of_zero_le (Rat.num_pos.2 hx).le
  have hn0 : n ≠ 0 := by
    rintro rfl
    exact absurd (Rat.num_pos.2 hx) (by simp [hn])
  have hquotient : x = (n : Rat) / (x.den : Rat) := by
    conv_lhs => rw [← Rat.num_div_den x, hn]
    simp
  have hden : (0 : Rat) < x.den := by exact_mod_cast x.den_pos
  -- numerator and denominator lie between powers of two
  obtain ⟨hn₁, hn₂⟩ := log2_spec hn0
  obtain ⟨hd₁, hd₂⟩ := log2_spec x.den_nz
  obtain ⟨guess, hguess⟩ : ∃ g : Int, g = (n.log2 : Int) - (x.den.log2 : Int) := ⟨_, rfl⟩
  have hlow : (2 : Rat) ^ (guess - 1) ≤ x := by
    rw [hquotient, le_div_iff₀ hden]
    have hsplit : (2 : Rat) ^ (guess - 1) * (2 : Rat) ^ ((x.den.log2 : Int) + 1) =
        (2 : Rat) ^ (n.log2 : Int) := by
      rw [← zpow_add₀ (by norm_num), hguess]
      congr 1
      ring
    calc (2 : Rat) ^ (guess - 1) * x.den
        ≤ (2 : Rat) ^ (guess - 1) * (2 : Rat) ^ ((x.den.log2 : Int) + 1) :=
          mul_le_mul_of_nonneg_left hd₂.le (two_zpow_pos _).le
      _ ≤ n := by rw [hsplit]; exact hn₁
  have hhigh : x < (2 : Rat) ^ (guess + 1) := by
    rw [hquotient, div_lt_iff₀ hden]
    have hsplit : (2 : Rat) ^ (guess + 1) * (2 : Rat) ^ (x.den.log2 : Int) =
        (2 : Rat) ^ ((n.log2 : Int) + 1) := by
      rw [← zpow_add₀ (by norm_num), hguess]
      congr 1
      ring
    calc (n : Rat) < (2 : Rat) ^ (guess + 1) * (2 : Rat) ^ (x.den.log2 : Int) := by
          rw [hsplit]; exact hn₂
      _ ≤ (2 : Rat) ^ (guess + 1) * x.den :=
          mul_le_mul_of_nonneg_left hd₁ (two_zpow_pos _).le
  unfold binaryLog
  simp only [hn, Int.toNat_natCast, ← hguess]
  split_ifs with h
  · exact ⟨h, hhigh⟩
  · refine ⟨hlow, ?_⟩
    rw [sub_add_cancel]
    exact not_le.1 h

end DotWriter
