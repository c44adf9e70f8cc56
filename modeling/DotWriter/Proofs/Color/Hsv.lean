import DotWriter.Color
import DotWriter.Proofs.Double.Nearest
import DotWriter.Proofs.Outcome

/-!
# Colors by hue, saturation and value

The conversion to channels rounds at every step.  `Binary64.Within` says between which bounds a
result lies, and rounding keeps the bounds that are exact.

* `sectorChannels_range` : **the channels of a color fit into a byte**;
* `Hsv.exists_rgb` : a color that was checked can be converted.
-/

namespace DotWriter

open Double hiding ofInt

namespace Binary64

/-- A finite number between two bounds. -/
def Within (low high : Rat) (b : Binary64) : Prop :=
  ∃ x : Double, b = .finite x ∧ low ≤ x.toRat ∧ x.toRat ≤ high

theorem round_within {x low high : Rat} (hlow : low ≤ x) (hhigh : x ≤ high) (hl : IsExact low)
    (hh : IsExact high) (zeroNegative : Bool) : Within low high (round x zeroNegative) :=
  round_between hlow hhigh hl hh zeroNegative

theorem ofInt_exact {n : Nat} (hn : n ≤ 2 * blockSize) :
    ∃ x : Double, ofInt (n : Int) = .finite x ∧ x.toRat = n := by
  have := round_exact (isExact_natCast hn) false
  rwa [ofInt, Int.cast_natCast]

theorem toRat_neg (x : Double) : (-x).toRat = -x.toRat := by
  change toRat ⟨!x.negative, x.index⟩ = -toRat ⟨x.negative, x.index⟩
  cases x.negative <;> simp [toRat, magnitude_eq]

theorem toRat_abs (x : Double) : x.abs.toRat = |x.toRat| := (abs_toRat x).symm

theorem isExact_zero : IsExact 0 := by simpa using isExact_natCast (Nat.zero_le (2 * blockSize))

theorem isExact_one : IsExact 1 := by
  simpa using isExact_natCast (by decide : 1 ≤ 2 * blockSize)

/-- Rounding a number of the unit interval does not add much to it. -/
theorem round_unit {x : Rat} (h0 : 0 ≤ x) (h1 : x ≤ 1) (zeroNegative : Bool) :
    Within 0 (x + 1 / 1024) (round x zeroNegative) := by
  obtain ⟨_, high, -, hexact, hlow, hhigh, rfl⟩ := exists_exact_around h0 (by linarith)
  obtain ⟨y, hy, hzero, hle⟩ := round_within h0 hhigh isExact_zero hexact zeroNegative
  exact ⟨y, hy, hzero, by linarith⟩

end Binary64

open Binary64

/-- A number that lies between zero and one still does after rounding. -/
theorem Number.toBinary64_within {x : Number} (h : x.inUnit = true) : Within 0 1 x.toBinary64 := by
  unfold Number.inUnit at h
  split at h
  · rename_i q hq
    simp only [Bool.and_eq_true, decide_eq_true_eq] at h
    rcases x with n | (x | _ | _)
    · cases hq
      exact round_within h.1 h.2 isExact_zero isExact_one false
    · cases hq
      exact ⟨x, rfl, h.1, h.2⟩
    · cases hq
    · cases hq
  · cases h

/-! ### Operations -/

section operations

variable {x y : Double} {low high : Rat}

theorem add_within (hlow : low ≤ x.toRat + y.toRat) (hhigh : x.toRat + y.toRat ≤ high)
    (hl : IsExact low) (hh : IsExact high) :
    Within low high ((x : Binary64) + (y : Binary64)) :=
  round_within hlow hhigh hl hh _

theorem sub_within (hlow : low ≤ x.toRat - y.toRat) (hhigh : x.toRat - y.toRat ≤ high)
    (hl : IsExact low) (hh : IsExact high) :
    Within low high ((x : Binary64) - (y : Binary64)) := by
  rw [sub_eq_add_neg, ← toRat_neg] at hlow hhigh
  exact round_within hlow hhigh hl hh _

/-- A difference in the unit interval does not grow much. -/
theorem sub_unit (h0 : 0 ≤ x.toRat - y.toRat) (h1 : x.toRat - y.toRat ≤ 1) :
    Within 0 (x.toRat - y.toRat + 1 / 1024) ((x : Binary64) - (y : Binary64)) := by
  rw [sub_eq_add_neg x.toRat, ← toRat_neg] at h0 h1 ⊢
  exact round_unit h0 h1 _

theorem mul_within (hlow : low ≤ x.toRat * y.toRat) (hhigh : x.toRat * y.toRat ≤ high)
    (hl : IsExact low) (hh : IsExact high) :
    Within low high ((x : Binary64) * (y : Binary64)) :=
  round_within hlow hhigh hl hh _

theorem div_within (hy : y.toRat ≠ 0) (hlow : low ≤ x.toRat / y.toRat)
    (hhigh : x.toRat / y.toRat ≤ high) (hl : IsExact low) (hh : IsExact high) :
    Within low high ((x : Binary64) / (y : Binary64)) := by
  change Within low high (Binary64.div _ _)
  rw [Binary64.div, if_neg hy]
  exact round_within hlow hhigh hl hh _

/-- What is left of a number that is not negative lies below the divisor. -/
theorem rest_within (hy : 0 < y.toRat) : Within 0 y.toRat (rest x y) := by
  have hfloor := Rat.floor_le (x.toRat / y.toRat)
  have hceil := Rat.lt_floor_add_one (x.toRat / y.toRat)
  rw [le_div_iff₀ hy] at hfloor
  rw [div_lt_iff₀ hy] at hceil
  push_cast at hceil
  exact round_within (by linarith) (by linarith) isExact_zero y.isExact false

end operations

/-! ### Channels -/

theorem floor_byte {q : Rat} (h0 : 0 ≤ q) (h1 : q < 256) : 0 ≤ q.floor ∧ q.floor ≤ 255 := by
  refine ⟨Rat.le_floor_iff.2 (by exact_mod_cast h0), ?_⟩
  have : q.floor < 256 := Rat.floor_lt_iff.2 (by exact_mod_cast h1)
  omega

/-- How far a hue is from the borders of its sector. -/
theorem sector_within {h : Double} (h0 : 0 ≤ h.toRat) (h1 : h.toRat ≤ 360) :
    Within 0 1 (ofInt 1 - abs (rest ((h : Binary64) / ofInt 60) (ofInt 2) - ofInt 1)) := by
  obtain ⟨one, hone, hone'⟩ := ofInt_exact (by decide : 1 ≤ 2 * blockSize)
  obtain ⟨two, htwo, htwo'⟩ := ofInt_exact (by decide : 2 ≤ 2 * blockSize)
  obtain ⟨sixty, hsixty, hsixty'⟩ := ofInt_exact (by decide : 60 ≤ 2 * blockSize)
  have hsix := isExact_natCast (by decide : 6 ≤ 2 * blockSize)
  push_cast at hone hone' htwo htwo' hsixty hsixty' hsix
  rw [hone, htwo, hsixty]
  obtain ⟨q, hq, -, -⟩ : Within 0 6 ((h : Binary64) / (sixty : Binary64)) := by
    refine div_within ?_ ?_ ?_ isExact_zero hsix <;> rw [hsixty']
    · norm_num
    · positivity
    · linarith
  obtain ⟨r, hr, hr0, hr1⟩ : Within 0 two.toRat (rest q two) :=
    rest_within (by rw [htwo']; norm_num)
  obtain ⟨d, hd, hd0, hd1⟩ : Within (-one.toRat) one.toRat ((r : Binary64) - (one : Binary64)) := by
    refine sub_within ?_ ?_ ⟨-one, toRat_neg one⟩ one.isExact <;> linarith
  have habs : d.abs.toRat ≤ 1 := by
    rw [toRat_abs, abs_le]
    constructor <;> linarith
  have habs0 : 0 ≤ d.abs.toRat := by
    rw [toRat_abs]
    exact abs_nonneg _
  rw [hq, hr, hd]
  exact sub_within (x := one) (y := d.abs) (by linarith) (by linarith) isExact_zero isExact_one

/-- An amount of a channel, lifted and scaled, fits into a byte. -/
theorem scale_range {amount lift : Double} (ha : 0 ≤ amount.toRat) (hl : 0 ≤ lift.toRat)
    (hsum : amount.toRat + lift.toRat ≤ 1025 / 1024) :
    0 ≤ whole (((amount : Binary64) + (lift : Binary64)) * ofInt 255) ∧
      whole (((amount : Binary64) + (lift : Binary64)) * ofInt 255) ≤ 255 := by
  have hbound := isExact_dyadic (by decide : 1025 ≤ 2 * blockSize) (by decide : 10 ≤ 1074)
  have hquarter := isExact_dyadic (by decide : 1023 ≤ 2 * blockSize) (by decide : 2 ≤ 1074)
  obtain ⟨top, htop, htop'⟩ := ofInt_exact (by decide : 255 ≤ 2 * blockSize)
  norm_num at hbound hquarter
  push_cast at htop htop'
  obtain ⟨s, hs, hs0, hs1⟩ := add_within (by linarith : (0 : Rat) ≤ amount.toRat + lift.toRat) hsum
    isExact_zero hbound
  rw [hs, htop]
  obtain ⟨c, hc, hc0, hc1⟩ : Within 0 (1023 / 4) ((s : Binary64) * (top : Binary64)) := by
    refine mul_within ?_ ?_ isExact_zero hquarter <;> rw [htop']
    · positivity
    · linarith
  rw [hc]
  exact floor_byte hc0 (by linarith)

/-- A number that fits into a byte. -/
def IsByte (n : Int) : Prop := 0 ≤ n ∧ n ≤ 255

/-- **The channels of a color fit into a byte.** -/
theorem sectorChannels_range {hue saturation value : Binary64} (hh : Within 0 1 hue)
    (hs : Within 0 1 saturation) (hv : Within 0 1 value) :
    IsByte (sectorChannels hue saturation value).1 ∧
      IsByte (sectorChannels hue saturation value).2.1 ∧
      IsByte (sectorChannels hue saturation value).2.2 := by
  obtain ⟨s, rfl, hs0, hs1⟩ := hs
  obtain ⟨v, rfl, hv0, hv1⟩ := hv
  obtain ⟨chroma, hchroma, hc0, hc1⟩ : Within 0 v.toRat ((v : Binary64) * (s : Binary64)) :=
    mul_within (by positivity) (mul_le_of_le_one_right hv0 hs1) isExact_zero v.isExact
  obtain ⟨lift, hlift, hl0, hl1⟩ := sub_unit (x := v) (y := chroma) (by linarith) (by linarith)
  -- the hue, with one taken for zero, in degrees
  obtain ⟨zero, hzero, hzero'⟩ := ofInt_exact (Nat.zero_le (2 * blockSize))
  obtain ⟨circle, hcircle, hcircle'⟩ := ofInt_exact (by decide : 360 ≤ 2 * blockSize)
  have hdegrees := isExact_natCast (by decide : 360 ≤ 2 * blockSize)
  push_cast at hzero hzero' hcircle hcircle' hdegrees
  obtain ⟨h, hh', hh0, hh1⟩ :
      Within 0 360 ((if less hue (ofInt 1) then hue else ofInt 0) * ofInt 360) := by
    obtain ⟨p, hp, hp0, hp1⟩ : Within 0 1 (if less hue (ofInt 1) then hue else ofInt 0) := by
      split_ifs
      · exact hh
      · exact ⟨zero, hzero, by linarith, by linarith⟩
    rw [hp, hcircle]
    refine mul_within ?_ ?_ isExact_zero hdegrees <;> rw [hcircle']
    · positivity
    · linarith
  rw [hzero] at hh'
  obtain ⟨t, ht, ht0, ht1⟩ := sector_within hh0 hh1
  obtain ⟨between, hbetween, hb0, hb1⟩ :
      Within 0 chroma.toRat ((chroma : Binary64) * (t : Binary64)) :=
    mul_within (by positivity) (mul_le_of_le_one_right hc0 ht1) isExact_zero chroma.isExact
  -- each channel gets one of three amounts
  have hscale : ∀ amount : Double, 0 ≤ amount.toRat → amount.toRat ≤ chroma.toRat →
      IsByte (whole (((amount : Binary64) + (lift : Binary64)) * ofInt 255)) :=
    fun amount h0 h1 => scale_range h0 hl0 (by linarith)
  have hfull := hscale chroma hc0 le_rfl
  have hpart := hscale between hb0 hb1
  have hnone := hscale zero hzero'.ge (by linarith)
  simp only [sectorChannels, Component.ofNat, Component.add, Component.sub, Component.mul,
    Component.div, Component.rest, Component.abs, Component.lt, Component.whole, Nat.cast_ofNat,
    Nat.cast_zero, Nat.cast_one, hchroma, hlift, hh', ht, hbetween, hzero]
  split_ifs
  · exact ⟨hfull, hpart, hnone⟩
  · exact ⟨hpart, hfull, hnone⟩
  · exact ⟨hnone, hfull, hpart⟩
  · exact ⟨hnone, hpart, hfull⟩
  · exact ⟨hpart, hnone, hfull⟩
  · exact ⟨hfull, hnone, hpart⟩

theorem channelOfInt_of_isByte {n : Int} (h : IsByte n) (name : String) :
    channelOfInt name n = .ok (UInt8.ofNat n.toNat) := if_pos h

theorem exists_ofInts {r g b : Int} (hr : IsByte r) (hg : IsByte g) (hb : IsByte b) :
    ∃ color, Rgb.ofInts r g b = .ok color := by
  unfold Rgb.ofInts
  rw [channelOfInt_of_isByte hr, channelOfInt_of_isByte hg, channelOfInt_of_isByte hb]
  exact ⟨_, rfl⟩

theorem checkComponent_eq_ok {name : String} {x : Number} :
    checkComponent name x = .ok () ↔ x.inUnit = true := by
  unfold checkComponent
  split_ifs with h <;> simp [h]

theorem hsvChannels_eq_ok {hue saturation value : Number} {channels : Int × Int × Int} :
    hsvChannels hue saturation value = .ok channels ↔
      (hue.inUnit = true ∧ saturation.inUnit = true ∧ value.inUnit = true) ∧
        sectorChannels hue.toBinary64 saturation.toBinary64 value.toBinary64 = channels := by
  unfold hsvChannels
  simp only [Outcome.bind_eq_ok]
  constructor
  · rintro ⟨_, hh, _, hs, _, hv, h⟩
    cases h
    exact ⟨⟨checkComponent_eq_ok.1 hh, checkComponent_eq_ok.1 hs, checkComponent_eq_ok.1 hv⟩, rfl⟩
  · rintro ⟨⟨hh, hs, hv⟩, rfl⟩
    exact ⟨(), checkComponent_eq_ok.2 hh, (), checkComponent_eq_ok.2 hs, (),
      checkComponent_eq_ok.2 hv, rfl⟩

namespace Hsv

/-- **A color that was checked can be converted.** -/
theorem exists_rgb {hue saturation value : Number} {c : Hsv} (h : of hue saturation value = .ok c) :
    ∃ color, c.rgb = .ok color := by
  obtain ⟨channels, hchannels, h⟩ := Outcome.bind_eq_ok.1 h
  obtain ⟨⟨hh, hs, hv⟩, -⟩ := hsvChannels_eq_ok.1 hchannels
  cases h
  -- a hue of one was replaced by zero
  have hhue : Number.inUnit
      (if hue.toRat? = some 1 then .float (.finite Double.zero) else hue) = true := by
    split_ifs
    · have hzero : Double.zero.toRat = 0 := magnitudeAt_zero
      simp [Number.inUnit, Number.toRat?, hzero]
    · exact hh
  obtain ⟨hr, hg, hb⟩ := sectorChannels_range (Number.toBinary64_within hhue)
    (Number.toBinary64_within hs) (Number.toBinary64_within hv)
  obtain ⟨color, hcolor⟩ := exists_ofInts hr hg hb
  exact ⟨color, Outcome.bind_eq_ok.2 ⟨_, hsvChannels_eq_ok.2 ⟨⟨hhue, hs, hv⟩, rfl⟩, hcolor⟩⟩

end Hsv

end DotWriter
