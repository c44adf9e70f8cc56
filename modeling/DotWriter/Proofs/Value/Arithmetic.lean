import DotWriter.Proofs.Outcome
import DotWriter.Value.Arithmetic
import Mathlib.Tactic.NormNum
import Mathlib.Tactic.SplitIfs

/-!
# Arithmetic on integers

The operations on integers of 64 bits are those on all integers, as long as the result fits.  A
result that does not fit is refused, and nothing wraps.

* `Operation.exact` : the operations on all integers, a quotient being cut toward zero;
* `Integer.Yields` : a computation returns an integer if it fits, and otherwise refuses it;
* `Calculation` : expressions over integers.  `Calculation.Defined` says that the exact value of
  every part fits and that nothing is divided by zero;
* `Calculation.run_eq_ok_iff` : **a calculation succeeds if and only if it is defined, and then
  returns its exact value**;
* `integers_exact` : the laws of the single operations, and of calculations.
-/

namespace DotWriter

open Outcome

namespace Integer

/-- The range of the signed numbers of 64 bits. -/
def Fits (n : Int) : Prop := -2 ^ 63 ≤ n ∧ n ≤ 2 ^ 63 - 1

theorem fits_iff {n : Int} : Fits n ↔ minInteger ≤ n ∧ n ≤ maxInteger := by
  simp only [Fits, minInteger, maxInteger]
  norm_num

theorem fits_val (a : Integer) : Fits a.val := fits_iff.2 a.inRange

theorem val_inj {a b : Integer} (h : a.val = b.val) : a = b := by
  cases a
  cases b
  cases h
  rfl

/-- A computation returns the integer `n` if it fits, and otherwise refuses it. -/
structure Yields (n : Int) (x : Except Fault Value) : Prop where
  returned : Fits n → ∃ a : Integer, a.val = n ∧ x = .ok (.int a)
  refused : ¬ Fits n → x = .error (.intRange n)

theorem yields_of (n : Int) : Yields n (Value.int <$> of n) := by
  unfold of
  split_ifs with h
  · exact ⟨fun _ => ⟨⟨n, h⟩, rfl, rfl⟩, fun hn => absurd (fits_iff.2 h) hn⟩
  · exact ⟨fun hn => absurd (fits_iff.1 hn) h, fun _ => rfl⟩

namespace Yields

variable {n : Int} {x : Except Fault Value}

theorem eq_ok_iff (h : Yields n x) {v : Value} :
    x = .ok v ↔ Fits n ∧ ∃ a : Integer, a.val = n ∧ v = .int a := by
  constructor
  · rintro rfl
    by_cases hn : Fits n
    · obtain ⟨a, ha, hv⟩ := h.returned hn
      cases hv
      exact ⟨hn, a, ha, rfl⟩
    · cases h.refused hn
  · rintro ⟨hn, b, hb, rfl⟩
    obtain ⟨a, ha, rfl⟩ := h.returned hn
    rw [val_inj (ha.trans hb.symm)]

theorem eq_error_iff (h : Yields n x) {f : Fault} :
    x = .error f ↔ ¬ Fits n ∧ f = .intRange n := by
  constructor
  · rintro rfl
    by_cases hn : Fits n
    · obtain ⟨a, -, ha⟩ := h.returned hn
      cases ha
    · cases h.refused hn
      exact ⟨hn, rfl⟩
  · rintro ⟨hn, rfl⟩
    exact h.refused hn

end Yields

/-! ### Quotients -/

/-- The quotient of absolute values with the sign that it gets is the quotient cut toward zero. -/
theorem truncatedQuotient_eq (a b : Int) : truncatedQuotient a b = a.tdiv b := by
  have hnonneg : ∀ n : Nat, ¬ (n : Int) < 0 := fun n => by omega
  unfold truncatedQuotient
  cases a with
  | ofNat m =>
    cases b with
    | ofNat n => exact if_neg (by simp [hnonneg])
    | negSucc n => exact if_pos (by simp)
  | negSucc m =>
    cases b with
    | ofNat n => exact if_pos (by simp)
    | negSucc n => exact if_neg (by simp)

/-- What is left over by a quotient that is cut toward zero is smaller than the divisor and has the
sign of the dividend. -/
theorem tdiv_spec (a : Int) {b : Int} (hb : b ≠ 0) :
    ∃ r, a = a.tdiv b * b + r ∧ |r| < |b| ∧ (r = 0 ∨ r.sign = a.sign) := by
  refine ⟨a.tmod b, (Int.tdiv_mul_add_tmod a b).symm, ?_, ?_⟩
  · rw [Int.abs_eq_natAbs, Int.abs_eq_natAbs, Int.natAbs_tmod]
    exact_mod_cast Nat.mod_lt _ (Int.natAbs_pos.2 hb)
  · rw [Int.sign_tmod]
    split_ifs with hdvd
    · exact .inl (Int.tmod_eq_zero_of_dvd hdvd)
    · exact .inr rfl

/-- The only quotient of integers that does not fit is that of the smallest one by minus one. -/
theorem not_fits_tdiv_iff {a b : Integer} :
    ¬ Fits (a.val.tdiv b.val) ↔ a.val = -2 ^ 63 ∧ b.val = -1 := by
  have ha := a.fits_val
  unfold Fits at ha ⊢
  constructor
  · intro h
    have hle := Int.natAbs_tdiv_le_natAbs a.val b.val
    have hquotient : a.val.tdiv b.val = 2 ^ 63 := by omega
    have hdividend : a.val = -2 ^ 63 := by omega
    -- the absolute value is not divided, so the divisor is one or minus one
    have hdiv := Int.natAbs_tdiv a.val b.val
    rw [hquotient, hdividend] at hdiv
    have hone : b.val.natAbs = 1 := (Nat.div_eq_self.1 hdiv.symm).resolve_left (by decide)
    rcases Int.natAbs_eq_iff.1 hone with hb | hb
    · rw [hb, Nat.cast_one, Int.tdiv_one] at hquotient
      omega
    · exact ⟨hdividend, hb⟩
  · rintro ⟨ha, hb⟩
    rw [ha, hb]
    decide

end Integer

open Integer

/-! ### Single operations -/

namespace Operation

/-- The operation on all integers.  A quotient is cut toward zero. -/
def exact : Operation → Int → Int → Int
  | add, m, n => m + n
  | sub, m, n => m - n
  | mul, m, n => m * n
  | div, m, n => m.tdiv n

/-- The operation on integers of 64 bits. -/
def integer : Operation → Integer → Integer → Except Fault Integer
  | add, a, b => a.add b
  | sub, a, b => a.sub b
  | mul, a, b => a.mul b
  | div, a, b => a.div b

/-- Values that are integers are calculated with as integers. -/
theorem calculate_int (op : Operation) (a b : Integer) :
    (Value.int a).calculate op (.int b) = Value.int <$> op.integer a b := by
  cases op <;> rfl

theorem calculate_div_zero (a : Integer) {b : Integer} (hb : b.val = 0) :
    (Value.int a).calculate .div (.int b) = .error (.divisionByZero "Int") := by
  rw [calculate_int, integer, Integer.div, if_pos hb]
  rfl

theorem calculate_yields {op : Operation} (a : Integer) {b : Integer}
    (h : ¬ (op = .div ∧ b.val = 0)) :
    Yields (op.exact a.val b.val) ((Value.int a).calculate op (.int b)) := by
  rw [calculate_int]
  cases op with
  | add => exact yields_of _
  | sub => exact yields_of _
  | mul => exact yields_of _
  | div =>
    have hb : b.val ≠ 0 := fun hb => h ⟨rfl, hb⟩
    rw [integer, Integer.div, if_neg hb, truncatedQuotient_eq]
    exact yields_of _

end Operation

open Operation

/-- The laws of the operations on two integers. -/
structure Integer.Laws (a b : Integer) : Prop where
  neg : Yields (-a.val) (Value.int a).negate
  add : Yields (a.val + b.val) ((Value.int a).calculate .add (.int b))
  sub : Yields (a.val - b.val) ((Value.int a).calculate .sub (.int b))
  mul : Yields (a.val * b.val) ((Value.int a).calculate .mul (.int b))
  div : b.val ≠ 0 → ∃ q r, a.val = q * b.val + r ∧ |r| < |b.val| ∧ (r = 0 ∨ r.sign = a.val.sign) ∧
    Yields q ((Value.int a).calculate .div (.int b))
  /-- Only a division by zero is refused as one. -/
  divisor_zero : (∃ f, (Value.int a).calculate .div (.int b) = .error f ∧
    f.family = .divisionByZero) ↔ b.val = 0
  /-- Only one quotient is refused for its value. -/
  quotient_refused : (∃ f, (Value.int a).calculate .div (.int b) = .error f ∧
    f.family = .value) ↔ a.val = -2 ^ 63 ∧ b.val = -1

theorem Integer.laws (a b : Integer) : Laws a b := by
  have hdiv : b.val ≠ 0 →
      Yields (a.val.tdiv b.val) ((Value.int a).calculate .div (.int b)) := by
    intro hb
    have hdivisor : ¬ (Operation.div = .div ∧ b.val = 0) := fun h => hb h.2
    exact calculate_yields a hdivisor
  refine ⟨yields_of _, yields_of _, yields_of _, yields_of _, ?_, ?_, ?_⟩
  · intro hb
    obtain ⟨r, hr, hlt, hsign⟩ := tdiv_spec a.val hb
    exact ⟨a.val.tdiv b.val, r, hr, hlt, hsign, hdiv hb⟩
  · constructor
    · rintro ⟨f, hf, hfamily⟩
      by_contra hb
      obtain ⟨-, rfl⟩ := (hdiv hb).eq_error_iff.1 hf
      cases hfamily
    · exact fun hb => ⟨_, calculate_div_zero a hb, rfl⟩
  · rw [← not_fits_tdiv_iff]
    constructor
    · rintro ⟨f, hf, hfamily⟩
      by_cases hb : b.val = 0
      · rw [calculate_div_zero a hb] at hf
        cases hf
        cases hfamily
      · exact ((hdiv hb).eq_error_iff.1 hf).1
    · intro hfits
      have hb : b.val ≠ 0 := by
        rw [(not_fits_tdiv_iff.1 hfits).2]
        decide
      exact ⟨_, (hdiv hb).refused hfits, rfl⟩

/-! ### Calculations -/

/-- An expression over integers. -/
inductive Calculation
  | number (a : Integer)
  | opposite (c : Calculation)
  | operation (op : Operation) (c d : Calculation)

namespace Calculation

/-- Calculates with values, part by part. -/
def run : Calculation → Except Fault Value
  | number a => .ok (.int a)
  | opposite c => do (← c.run).negate
  | operation op c d => do
    let v ← c.run
    v.calculate op (← d.run)

/-- The value of an expression over all integers. -/
def exact : Calculation → Int
  | number a => a.val
  | opposite c => -c.exact
  | operation op c d => op.exact c.exact d.exact

/-- The values of all parts fit, and nothing is divided by zero. -/
def Defined : Calculation → Prop
  | number _ => True
  | opposite c => c.Defined ∧ Fits (-c.exact)
  | operation op c d =>
    c.Defined ∧ d.Defined ∧ ¬ (op = .div ∧ d.exact = 0) ∧ Fits (op.exact c.exact d.exact)

theorem Defined.fits {c : Calculation} (h : c.Defined) : Fits c.exact := by
  cases c with
  | number a => exact a.fits_val
  | opposite c => exact h.2
  | operation op c d => exact h.2.2.2

theorem Defined.exists_integer {c : Calculation} (h : c.Defined) :
    ∃ a : Integer, a.val = c.exact := ⟨⟨c.exact, fits_iff.1 h.fits⟩, rfl⟩

/-- **A calculation succeeds if and only if it is defined, and then returns its exact value.** -/
theorem run_eq_ok_iff {c : Calculation} {v : Value} :
    c.run = .ok v ↔ c.Defined ∧ ∃ a : Integer, a.val = c.exact ∧ v = .int a := by
  induction c generalizing v with
  | number a =>
    constructor
    · rintro ⟨⟩
      exact ⟨trivial, a, rfl, rfl⟩
    · rintro ⟨-, b, hb, rfl⟩
      rw [val_inj hb]
      rfl
  | opposite c ih =>
    rw [run, bind_eq_ok, Defined, and_assoc]
    constructor
    · rintro ⟨w, hw, hv⟩
      obtain ⟨hc, a, ha, rfl⟩ := ih.1 hw
      rw [exact, ← ha]
      exact ⟨hc, (yields_of _).eq_ok_iff.1 hv⟩
    · rintro ⟨hc, hv⟩
      obtain ⟨a, ha⟩ := hc.exists_integer
      rw [exact, ← ha] at hv
      exact ⟨.int a, ih.2 ⟨hc, a, ha, rfl⟩, (yields_of _).eq_ok_iff.2 hv⟩
  | operation op c d ihc ihd =>
    simp only [run, bind_eq_ok]
    constructor
    · rintro ⟨_, hleft, _, hright, hv⟩
      obtain ⟨hc, a, ha, rfl⟩ := ihc.1 hleft
      obtain ⟨hd, b, hb, rfl⟩ := ihd.1 hright
      have hdivisor : ¬ (op = .div ∧ b.val = 0) := by
        rintro ⟨rfl, hzero⟩
        rw [calculate_div_zero a hzero] at hv
        cases hv
      obtain ⟨hfits, hresult⟩ := (calculate_yields a hdivisor).eq_ok_iff.1 hv
      rw [ha, hb] at hfits hresult
      rw [hb] at hdivisor
      exact ⟨⟨hc, hd, hdivisor, hfits⟩, hresult⟩
    · rintro ⟨⟨hc, hd, hdivisor, hfits⟩, hresult⟩
      obtain ⟨a, ha⟩ := hc.exists_integer
      obtain ⟨b, hb⟩ := hd.exists_integer
      rw [← hb] at hdivisor
      rw [exact] at hresult
      rw [← ha, ← hb] at hfits hresult
      exact ⟨_, ihc.2 ⟨hc, a, ha, rfl⟩, _, ihd.2 ⟨hd, b, hb, rfl⟩,
        (calculate_yields a hdivisor).eq_ok_iff.2 ⟨hfits, hresult⟩⟩

/-- What a calculation on integers can be refused for. -/
def IsRefusal (f : Fault) : Prop :=
  (∃ n, ¬ Fits n ∧ f = .intRange n) ∨ f = .divisionByZero "Int"

theorem run_failsOnly (c : Calculation) : FailsOnly IsRefusal c.run := by
  have hinteger : ∀ {c : Calculation} {v : Value}, c.run = .ok v → ∃ a, v = .int a := by
    intro c v h
    obtain ⟨-, a, -, ha⟩ := run_eq_ok_iff.1 h
    exact ⟨a, ha⟩
  induction c with
  | number a => exact .ok _
  | opposite c ih =>
    refine ih.bind fun v hv => ?_
    obtain ⟨a, rfl⟩ := hinteger hv
    exact fun f hf => .inl ⟨_, (yields_of _).eq_error_iff.1 hf⟩
  | operation op c d ihc ihd =>
    refine ihc.bind fun v hv => ihd.bind fun w hw => ?_
    obtain ⟨a, rfl⟩ := hinteger hv
    obtain ⟨b, rfl⟩ := hinteger hw
    intro f hf
    by_cases hdivisor : op = .div ∧ b.val = 0
    · obtain ⟨rfl, hzero⟩ := hdivisor
      rw [calculate_div_zero a hzero] at hf
      cases hf
      exact .inr rfl
    · exact .inl ⟨_, (calculate_yields a hdivisor).eq_error_iff.1 hf⟩

/-- The laws of calculations. -/
structure Lawful (c : Calculation) : Prop where
  run_iff : ∀ v, c.run = .ok v ↔ c.Defined ∧ ∃ a : Integer, a.val = c.exact ∧ v = .int a
  fits : c.Defined → Fits c.exact
  refused : FailsOnly IsRefusal c.run

end Calculation

/-- **Arithmetic on integers is exact or refused**, in single operations and in expressions of any
depth. -/
theorem integers_exact : (∀ a b : Integer, a.Laws b) ∧ ∀ c : Calculation, c.Lawful :=
  ⟨Integer.laws, fun c => ⟨fun _ => c.run_eq_ok_iff, Calculation.Defined.fits, c.run_failsOnly⟩⟩

end DotWriter
