import DotWriter.Proofs.Color.Hsv
import Mathlib.Data.Rat.Floor

/-!
# The color circle

Hues lie on a circle, on which red, green and blue are a third of a turn apart.  How much of the
chroma a channel gets depends only on how far the hue is from its own: this is `share`, and `wheel`
are the channels by their shares.  The conversion by sectors is compared with the wheel, for exact
numbers, and what the circle is symmetric under follows from the wheel alone.

* `sectorAmounts_eq` : **in each sector the formula gives every channel its share**, on both borders
  of it, too;
* `sectorChannels_eq_wheel` : **the channels are the shares that the hue gives them**;
* `wheel_third` and `wheel_neg` : a third of a turn, and the other way round;
* `sectorFormula_extremes` : the largest and the smallest channel;
* `hsv_conversion_laws` : the laws of the exact conversion, gathered in `ConversionLaws`, and of the
  numbers that are refused, in `ComponentLaws`.
-/

namespace DotWriter

/-! ### The circle -/

/-- How far a place on the circle is from its origin, in turns. -/
def offset (t : Rat) : Rat := min (Int.fract t) (1 - Int.fract t)

theorem offset_add_intCast (t : Rat) (n : Int) : offset (t + n) = offset t := by
  rw [offset, Int.fract_add_intCast, offset]

theorem offset_neg (t : Rat) : offset (-t) = offset t := by
  unfold offset
  by_cases h : Int.fract t = 0
  · rw [Int.fract_neg_eq_zero.2 h, h]
  · rw [Int.fract_neg h, sub_sub_cancel, min_comm]

/-- A place up to half a turn after a whole number of turns. -/
theorem offset_after {t d : Rat} (n : Int) (ht : t = n + d) (h0 : 0 ≤ d) (h1 : d ≤ 1 / 2) :
    offset t = d := by
  rw [ht, add_comm, offset_add_intCast, offset, Int.fract_eq_self.2 ⟨h0, by linarith⟩]
  exact min_eq_left (by linarith)

/-- A place up to half a turn before a whole number of turns. -/
theorem offset_before {t d : Rat} (n : Int) (ht : t = n - d) (h0 : 0 ≤ d) (h1 : d ≤ 1 / 2) :
    offset t = d := by
  rw [← offset_neg]
  exact offset_after (-n) (by rw [ht]; push_cast; ring) h0 h1

/-- The share of the chroma that a channel gets at the given distance from its own hue: all of it up
to a sixth of a turn, and nothing from a third on. -/
def share (t : Rat) : Rat := max 0 (min 1 (2 - 6 * offset t))

theorem share_add_intCast (t : Rat) (n : Int) : share (t + n) = share t := by
  rw [share, offset_add_intCast, share]

theorem share_neg (t : Rat) : share (-t) = share t := by
  rw [share, offset_neg, share]

section share

variable {t d : Rat}

theorem share_full (ht : offset t = d) (h : d ≤ 1 / 6) : share t = 1 := by
  rw [share, ht, min_eq_left (by linarith), max_eq_right zero_le_one]

theorem share_part (ht : offset t = d) (hlow : 1 / 6 ≤ d) (hhigh : d ≤ 1 / 3) :
    share t = 2 - 6 * d := by
  rw [share, ht, min_eq_right (by linarith), max_eq_right (by linarith)]

theorem share_none (ht : offset t = d) (h : 1 / 3 ≤ d) : share t = 0 := by
  rw [share, ht, min_eq_right (by linarith), max_eq_left (by linarith)]

end share

/-! ### Sectors -/

/-- The channel with the given amount, lifted and scaled. -/
def level (saturation value amount : Rat) : Int :=
  ⌊(amount + (value - value * saturation)) * 255⌋

/-- The amounts of red, green and blue in each sector. -/
def sectorAmounts (k : Fin 6) (chroma between : Rat) : Rat × Rat × Rat :=
  match k with
  | 0 => (chroma, between, 0)
  | 1 => (between, chroma, 0)
  | 2 => (0, chroma, between)
  | 3 => (0, between, chroma)
  | 4 => (between, 0, chroma)
  | 5 => (chroma, 0, between)

/-- The formula of a sector. -/
def sectorFormula (k : Fin 6) (hue saturation value : Rat) : Int × Int × Int :=
  let chroma := value * saturation
  let between := chroma * (1 - |2 * Int.fract (3 * hue) - 1|)
  let (r, g, b) := sectorAmounts k chroma between
  (level saturation value r, level saturation value g, level saturation value b)

/-- The hue lies in the sector or on one of its borders. -/
def InSector (k : Fin 6) (hue : Rat) : Prop := (k.val : Rat) ≤ 6 * hue ∧ 6 * hue ≤ k.val + 1

/-- The sector that the conversion selects. -/
def sectorOf (hue : Rat) : Fin 6 :=
  if 6 * hue < 1 then 0
  else if 6 * hue < 2 then 1
  else if 6 * hue < 3 then 2
  else if 6 * hue < 4 then 3
  else if 6 * hue < 5 then 4
  else 5

theorem sectorChannels_eq_formula {h : Rat} (h1 : h < 1) (s v : Rat) :
    sectorChannels h s v = sectorFormula (sectorOf h) h s v := by
  have habs : ∀ x : Rat, (if x < 0 then -x else x) = |x| := by
    intro x
    split_ifs with hx
    · rw [abs_of_neg hx]
    · rw [abs_of_nonneg (not_lt.1 hx)]
  have hrest : h * 360 / 60 - 2 * ((h * 360 / 60 / 2).floor : Rat) = 2 * Int.fract (3 * h) := by
    have hsix : h * 360 / 60 = 2 * (3 * h) := by ring
    rw [hsix, mul_div_cancel_left₀ _ two_ne_zero, Int.fract, mul_sub]
    rfl
  -- the borders of the sectors in degrees
  have hborder : ∀ n : Rat, h * 360 < 60 * n ↔ 6 * h < n := by
    intro n
    constructor <;> intro h <;> linarith
  have h60 := hborder 1
  have h120 := hborder 2
  have h180 := hborder 3
  have h240 := hborder 4
  have h300 := hborder 5
  norm_num at h60 h120 h180 h240 h300
  simp only [sectorChannels, sectorFormula, sectorOf, Component.ofNat, Component.add, Component.sub,
    Component.mul, Component.div, Component.rest, Component.abs, Component.lt, Component.whole,
    Nat.cast_ofNat, Nat.cast_zero, Nat.cast_one, decide_eq_true_eq, if_pos h1, hrest, habs, h60,
    h120, h180, h240, h300]
  split_ifs <;> rfl

/-- The channels by the shares of red, green and blue, whose hues are a third of a turn apart. -/
def wheel (hue saturation value : Rat) : Int × Int × Int :=
  let chroma := value * saturation
  (level saturation value (chroma * share hue),
    level saturation value (chroma * share (hue - 1 / 3)),
    level saturation value (chroma * share (hue - 2 / 3)))

theorem between_eq (t : Rat) : 1 - |2 * Int.fract t - 1| = 2 * offset t := by
  unfold offset
  rcases le_total (Int.fract t) (1 - Int.fract t) with h | h
  · rw [min_eq_left h, abs_of_nonpos (by linarith)]
    ring
  · rw [min_eq_right h, abs_of_nonneg (by linarith)]
    ring

/-- **In each sector the formula gives every channel its share.** -/
theorem sectorAmounts_eq {k : Fin 6} {h : Rat} (hk : InSector k h) (chroma : Rat) :
    sectorAmounts k chroma (chroma * (2 * offset (3 * h))) =
      (chroma * share h, chroma * share (h - 1 / 3), chroma * share (h - 2 / 3)) := by
  -- how far the hue is from red, green and blue, by sector
  match k, hk with
  | 0, hk =>
    obtain ⟨hlow, hhigh⟩ : (0 : Rat) ≤ 6 * h ∧ 6 * h ≤ 0 + 1 := hk
    have hx : offset (3 * h) = 3 * h :=
      offset_after 0 (by push_cast; ring) (by linarith) (by linarith)
    have hr : offset h = h :=
      offset_after 0 (by push_cast; ring) (by linarith) (by linarith)
    have hg : offset (h - 1 / 3) = 1 / 3 - h :=
      offset_before 0 (by push_cast; ring) (by linarith) (by linarith)
    have hb : offset (h - 2 / 3) = h + 1 / 3 :=
      offset_after (-1) (by push_cast; ring) (by linarith) (by linarith)
    rw [hx, share_full hr (by linarith), share_part hg (by linarith) (by linarith),
      share_none hb (by linarith), sectorAmounts]
    ring_nf
  | 1, hk =>
    obtain ⟨hlow, hhigh⟩ : (1 : Rat) ≤ 6 * h ∧ 6 * h ≤ 1 + 1 := hk
    have hx : offset (3 * h) = 1 - 3 * h :=
      offset_before 1 (by push_cast; ring) (by linarith) (by linarith)
    have hr : offset h = h :=
      offset_after 0 (by push_cast; ring) (by linarith) (by linarith)
    have hg : offset (h - 1 / 3) = 1 / 3 - h :=
      offset_before 0 (by push_cast; ring) (by linarith) (by linarith)
    have hb : offset (h - 2 / 3) = 2 / 3 - h :=
      offset_before 0 (by push_cast; ring) (by linarith) (by linarith)
    rw [hx, share_part hr (by linarith) (by linarith), share_full hg (by linarith),
      share_none hb (by linarith), sectorAmounts]
    ring_nf
  | 2, hk =>
    obtain ⟨hlow, hhigh⟩ : (2 : Rat) ≤ 6 * h ∧ 6 * h ≤ 2 + 1 := hk
    have hx : offset (3 * h) = 3 * h - 1 :=
      offset_after 1 (by push_cast; ring) (by linarith) (by linarith)
    have hr : offset h = h :=
      offset_after 0 (by push_cast; ring) (by linarith) (by linarith)
    have hg : offset (h - 1 / 3) = h - 1 / 3 :=
      offset_after 0 (by push_cast; ring) (by linarith) (by linarith)
    have hb : offset (h - 2 / 3) = 2 / 3 - h :=
      offset_before 0 (by push_cast; ring) (by linarith) (by linarith)
    rw [hx, share_none hr (by linarith), share_full hg (by linarith),
      share_part hb (by linarith) (by linarith), sectorAmounts]
    ring_nf
  | 3, hk =>
    obtain ⟨hlow, hhigh⟩ : (3 : Rat) ≤ 6 * h ∧ 6 * h ≤ 3 + 1 := hk
    have hx : offset (3 * h) = 2 - 3 * h :=
      offset_before 2 (by push_cast; ring) (by linarith) (by linarith)
    have hr : offset h = 1 - h :=
      offset_before 1 (by push_cast; ring) (by linarith) (by linarith)
    have hg : offset (h - 1 / 3) = h - 1 / 3 :=
      offset_after 0 (by push_cast; ring) (by linarith) (by linarith)
    have hb : offset (h - 2 / 3) = 2 / 3 - h :=
      offset_before 0 (by push_cast; ring) (by linarith) (by linarith)
    rw [hx, share_none hr (by linarith), share_part hg (by linarith) (by linarith),
      share_full hb (by linarith), sectorAmounts]
    ring_nf
  | 4, hk =>
    obtain ⟨hlow, hhigh⟩ : (4 : Rat) ≤ 6 * h ∧ 6 * h ≤ 4 + 1 := hk
    have hx : offset (3 * h) = 3 * h - 2 :=
      offset_after 2 (by push_cast; ring) (by linarith) (by linarith)
    have hr : offset h = 1 - h :=
      offset_before 1 (by push_cast; ring) (by linarith) (by linarith)
    have hg : offset (h - 1 / 3) = h - 1 / 3 :=
      offset_after 0 (by push_cast; ring) (by linarith) (by linarith)
    have hb : offset (h - 2 / 3) = h - 2 / 3 :=
      offset_after 0 (by push_cast; ring) (by linarith) (by linarith)
    rw [hx, share_part hr (by linarith) (by linarith), share_none hg (by linarith),
      share_full hb (by linarith), sectorAmounts]
    ring_nf
  | 5, hk =>
    obtain ⟨hlow, hhigh⟩ : (5 : Rat) ≤ 6 * h ∧ 6 * h ≤ 5 + 1 := hk
    have hx : offset (3 * h) = 3 - 3 * h :=
      offset_before 3 (by push_cast; ring) (by linarith) (by linarith)
    have hr : offset h = 1 - h :=
      offset_before 1 (by push_cast; ring) (by linarith) (by linarith)
    have hg : offset (h - 1 / 3) = 4 / 3 - h :=
      offset_before 1 (by push_cast; ring) (by linarith) (by linarith)
    have hb : offset (h - 2 / 3) = h - 2 / 3 :=
      offset_after 0 (by push_cast; ring) (by linarith) (by linarith)
    rw [hx, share_full hr (by linarith), share_none hg (by linarith),
      share_part hb (by linarith) (by linarith), sectorAmounts]
    ring_nf

theorem sectorFormula_eq_wheel {k : Fin 6} {h : Rat} (hk : InSector k h) (s v : Rat) :
    sectorFormula k h s v = wheel h s v := by
  simp only [sectorFormula, between_eq, sectorAmounts_eq hk, wheel]

theorem sectorOf_spec {h : Rat} (h0 : 0 ≤ h) (h1 : h < 1) : InSector (sectorOf h) h := by
  unfold sectorOf
  split_ifs
  · exact (⟨by linarith, by linarith⟩ : (0 : Rat) ≤ 6 * h ∧ 6 * h ≤ 0 + 1)
  · exact (⟨by linarith, by linarith⟩ : (1 : Rat) ≤ 6 * h ∧ 6 * h ≤ 1 + 1)
  · exact (⟨by linarith, by linarith⟩ : (2 : Rat) ≤ 6 * h ∧ 6 * h ≤ 2 + 1)
  · exact (⟨by linarith, by linarith⟩ : (3 : Rat) ≤ 6 * h ∧ 6 * h ≤ 3 + 1)
  · exact (⟨by linarith, by linarith⟩ : (4 : Rat) ≤ 6 * h ∧ 6 * h ≤ 4 + 1)
  · exact (⟨by linarith, by linarith⟩ : (5 : Rat) ≤ 6 * h ∧ 6 * h ≤ 5 + 1)

/-! ### The wheel -/

theorem wheel_add_intCast (h : Rat) (n : Int) (s v : Rat) : wheel (h + n) s v = wheel h s v := by
  simp only [wheel, add_sub_right_comm, share_add_intCast]

theorem wheel_third (h s v : Rat) : wheel (h + 1 / 3) s v =
    ((wheel h s v).2.2, (wheel h s v).1, (wheel h s v).2.1) := by
  have hr : share (h + 1 / 3) = share (h - 2 / 3) := by
    rw [← share_add_intCast (h - 2 / 3) 1]
    congr 1
    push_cast
    ring
  simp only [wheel, hr]
  ring_nf

theorem wheel_neg (h s v : Rat) : wheel (-h) s v =
    ((wheel h s v).1, (wheel h s v).2.2, (wheel h s v).2.1) := by
  have hg : share (-h - 1 / 3) = share (h - 2 / 3) := by
    rw [← share_neg, ← share_add_intCast (h - 2 / 3) 1]
    congr 1
    push_cast
    ring
  have hb : share (-h - 2 / 3) = share (h - 1 / 3) := by
    rw [← share_neg, ← share_add_intCast (h - 1 / 3) 1]
    congr 1
    push_cast
    ring
  simp only [wheel, hg, hb, share_neg]

/-- A hue of one is a hue of zero. -/
theorem sectorChannels_one (s v : Rat) : sectorChannels 1 s v = sectorChannels 0 s v := by
  have hone : (if (1 : Rat) < 1 then (1 : Rat) else 0) = if (0 : Rat) < 1 then 0 else 0 := by
    norm_num
  simp only [sectorChannels, Component.ofNat, Component.lt, Nat.cast_zero, Nat.cast_one,
    decide_eq_true_eq, hone]

/-- **The channels are the shares that the hue gives them.** -/
theorem sectorChannels_eq_wheel {h : Rat} (h0 : 0 ≤ h) (h1 : h ≤ 1) (s v : Rat) :
    sectorChannels h s v = wheel h s v := by
  have hlt : ∀ h : Rat, 0 ≤ h → h < 1 → sectorChannels h s v = wheel h s v := by
    intro h h0 h1
    rw [sectorChannels_eq_formula h1, sectorFormula_eq_wheel (sectorOf_spec h0 h1)]
  rcases h1.lt_or_eq with h1 | rfl
  · exact hlt h h0 h1
  · -- a hue of one is taken for zero, and the wheel has turned once
    rw [sectorChannels_one, hlt 0 le_rfl one_pos, ← wheel_add_intCast 0 1]
    norm_num

theorem exists_inSector {h : Rat} (h0 : 0 ≤ h) (h1 : h ≤ 1) : ∃ k, InSector k h := by
  rcases h1.lt_or_eq with h1 | rfl
  · exact ⟨_, sectorOf_spec h0 h1⟩
  · exact ⟨5, (⟨by norm_num, by norm_num⟩ : (5 : Rat) ≤ 6 * 1 ∧ 6 * 1 ≤ (5 : Rat) + 1)⟩

theorem InSector.mem_unit {k : Fin 6} {h : Rat} (hk : InSector k h) : 0 ≤ h ∧ h ≤ 1 := by
  have hlow : (0 : Rat) ≤ k.val := Nat.cast_nonneg _
  have hhigh : (k.val : Rat) ≤ 5 := by exact_mod_cast Nat.le_of_lt_succ k.isLt
  obtain ⟨h0, h1⟩ := hk
  constructor <;> linarith

/-- The formula of a sector holds on its borders, too. -/
theorem sectorChannels_eq_sectorFormula {k : Fin 6} {h : Rat} (hk : InSector k h) (s v : Rat) :
    sectorChannels h s v = sectorFormula k h s v := by
  rw [sectorFormula_eq_wheel hk, sectorChannels_eq_wheel hk.mem_unit.1 hk.mem_unit.2]

/-! ### Levels -/

section level

variable (s v : Rat)

theorem level_mono {a b : Rat} (h : a ≤ b) : level s v a ≤ level s v b :=
  Int.floor_le_floor (by linarith)

theorem level_full : level s v (v * s) = ⌊255 * v⌋ := by
  rw [level, add_sub_cancel, mul_comm]

theorem level_none : level s v 0 = ⌊255 * v * (1 - s)⌋ := by
  rw [level]
  ring_nf

end level

theorem offset_range (t : Rat) : 0 ≤ offset t ∧ offset t ≤ 1 / 2 := by
  have h0 := Int.fract_nonneg t
  have h1 := Int.fract_lt_one t
  unfold offset
  refine ⟨le_min h0 (by linarith), ?_⟩
  rcases le_total (Int.fract t) (1 / 2) with h | h
  · exact min_le_of_left_le h
  · exact min_le_of_right_le (by linarith)

/-- In every sector one channel gets the whole chroma, and one gets nothing of it. -/
theorem sectorFormula_extremes (k : Fin 6) (h : Rat) {s v : Rat} (hs : 0 ≤ s) (hv : 0 ≤ v) :
    let c := sectorFormula k h s v
    max c.1 (max c.2.1 c.2.2) = ⌊255 * v⌋ ∧ min c.1 (min c.2.1 c.2.2) = ⌊255 * v * (1 - s)⌋ := by
  have hchroma : 0 ≤ v * s := mul_nonneg hv hs
  obtain ⟨h0, h1⟩ := offset_range (3 * h)
  have hnone := level_mono s v (show 0 ≤ v * s * (2 * offset (3 * h)) by positivity)
  have hfull := level_mono s v (show v * s * (2 * offset (3 * h)) ≤ v * s from
    mul_le_of_le_one_right hchroma (by linarith))
  simp only [sectorFormula, between_eq, ← level_full s v, ← level_none]
  match k with
  | 0 | 1 | 2 | 3 | 4 | 5 =>
    simp only [sectorAmounts]
    omega

/-! ### Exact components -/

/-- A number of the unit interval. -/
abbrev Portion := Set.Icc (0 : Rat) 1

/-- The laws of the exact conversion. -/
structure ConversionLaws (h s v : Rat) : Prop where
  /-- Every channel fits into a byte. -/
  bytes : IsByte (sectorChannels h s v).1 ∧ IsByte (sectorChannels h s v).2.1 ∧
    IsByte (sectorChannels h s v).2.2
  /-- So there is a color with these channels. -/
  color : ∃ color, Rgb.ofInts (sectorChannels h s v).1 (sectorChannels h s v).2.1
    (sectorChannels h s v).2.2 = .ok color
  largest : max (sectorChannels h s v).1
    (max (sectorChannels h s v).2.1 (sectorChannels h s v).2.2) = ⌊255 * v⌋
  smallest : min (sectorChannels h s v).1
    (min (sectorChannels h s v).2.1 (sectorChannels h s v).2.2) = ⌊255 * v * (1 - s)⌋
  /-- A hue of one is a hue of zero. -/
  wrapped : sectorChannels 1 s v = sectorChannels 0 s v
  /-- A third of a turn moves every channel on. -/
  turned : sectorChannels (Int.fract (h + 1 / 3)) s v =
    ((sectorChannels h s v).2.2, (sectorChannels h s v).1, (sectorChannels h s v).2.1)
  /-- The other way round the circle green and blue change places. -/
  mirrored : sectorChannels (1 - h) s v =
    ((sectorChannels h s v).1, (sectorChannels h s v).2.2, (sectorChannels h s v).2.1)
  covered : ∃ k, InSector k h
  /-- The channels are given by the formula of the sector, also on its borders. -/
  sector : ∀ k, InSector k h → sectorChannels h s v = sectorFormula k h s v
  /-- The formulas of neighbours agree on the border between them. -/
  border : ∀ k : Fin 5, sectorFormula k.castSucc (((k.val : Rat) + 1) / 6) s v =
    sectorFormula k.succ (((k.val : Rat) + 1) / 6) s v

theorem sectorFormula_border (k : Fin 5) (s v : Rat) :
    sectorFormula k.castSucc (((k.val : Rat) + 1) / 6) s v =
      sectorFormula k.succ (((k.val : Rat) + 1) / 6) s v := by
  have hborder : 6 * (((k.val : Rat) + 1) / 6) = k.val + 1 := by ring
  have hbelow : InSector k.castSucc (((k.val : Rat) + 1) / 6) := by
    rw [InSector, hborder, Fin.val_castSucc]
    exact ⟨by linarith, le_rfl⟩
  have habove : InSector k.succ (((k.val : Rat) + 1) / 6) := by
    rw [InSector, hborder, Fin.val_succ]
    push_cast
    exact ⟨le_rfl, by linarith⟩
  rw [sectorFormula_eq_wheel hbelow, sectorFormula_eq_wheel habove]

theorem conversionLaws (h s v : Portion) : ConversionLaws h s v := by
  obtain ⟨h, h0, h1⟩ := h
  obtain ⟨s, s0, s1⟩ := s
  obtain ⟨v, v0, v1⟩ := v
  obtain ⟨k, hk⟩ := exists_inSector h0 h1
  obtain ⟨hlargest, hsmallest⟩ := sectorFormula_extremes k h s0 v0
  rw [← sectorChannels_eq_sectorFormula hk] at hlargest hsmallest
  have hbytes : IsByte (sectorChannels h s v).1 ∧ IsByte (sectorChannels h s v).2.1 ∧
      IsByte (sectorChannels h s v).2.2 := by
    have htop : ⌊255 * v⌋ ≤ 255 := Int.cast_le.1 ((Int.floor_le _).trans (by push_cast; linarith))
    have hbottom : 0 ≤ ⌊255 * v * (1 - s)⌋ :=
      Int.floor_nonneg.2 (mul_nonneg (by linarith) (by linarith))
    unfold IsByte
    omega
  have hturned : 0 ≤ Int.fract (h + 1 / 3) ∧ Int.fract (h + 1 / 3) ≤ 1 :=
    ⟨Int.fract_nonneg _, (Int.fract_lt_one _).le⟩
  refine ⟨hbytes, exists_ofInts hbytes.1 hbytes.2.1 hbytes.2.2, hlargest, hsmallest,
    sectorChannels_one s v, ?turned, ?mirrored, ⟨k, hk⟩,
    fun k hk => sectorChannels_eq_sectorFormula hk s v, fun k => sectorFormula_border k s v⟩
  case turned =>
    rw [sectorChannels_eq_wheel hturned.1 hturned.2, sectorChannels_eq_wheel h0 h1, ← wheel_third,
      ← wheel_add_intCast (Int.fract (h + 1 / 3)) ⌊h + 1 / 3⌋, Int.fract_add_floor]
  case mirrored =>
    rw [sectorChannels_eq_wheel (by linarith) (by linarith), sectorChannels_eq_wheel h0 h1,
      ← wheel_neg, ← wheel_add_intCast (-h) 1, neg_add_eq_sub, Int.cast_one]

/-! ### Components that are given -/

/-- The number lies between zero and one. -/
def Number.IsPortion (x : Number) : Prop := ∃ q : Portion, x.toRat? = some q.1

theorem Number.inUnit_iff {x : Number} : x.inUnit = true ↔ x.IsPortion := by
  unfold inUnit IsPortion
  cases x.toRat? with
  | none => simp
  | some q => simp [Set.mem_Icc]

/-- What is wrong with the first component that does not lie between zero and one. -/
inductive FirstOutside (x y z : Number) : Fault → Prop
  | hue (hx : ¬ x.IsPortion) : FirstOutside x y z (.component "Hue" x.text)
  | saturation (hx : x.IsPortion) (hy : ¬ y.IsPortion) :
    FirstOutside x y z (.component "Saturation" y.text)
  | value (hx : x.IsPortion) (hy : y.IsPortion) (hz : ¬ z.IsPortion) :
    FirstOutside x y z (.component "Value" z.text)

section components

variable {x y z : Number}

theorem exists_firstOutside (h : ¬ (x.IsPortion ∧ y.IsPortion ∧ z.IsPortion)) :
    ∃ f, FirstOutside x y z f := by
  by_cases hx : x.IsPortion
  · by_cases hy : y.IsPortion
    · exact ⟨_, .value hx hy fun hz => h ⟨hx, hy, hz⟩⟩
    · exact ⟨_, .saturation hx hy⟩
  · exact ⟨_, .hue hx⟩

theorem FirstOutside.family {f : Fault} (h : FirstOutside x y z f) : f.family = .value := by
  cases h <;> rfl

theorem checkComponent_of_not {name : String} (h : ¬ x.IsPortion) :
    checkComponent name x = .error (.component name x.text) :=
  if_neg fun hx => h (Number.inUnit_iff.1 hx)

theorem FirstOutside.hsvChannels {f : Fault} (h : FirstOutside x y z f) :
    hsvChannels x y z = .error f := by
  unfold DotWriter.hsvChannels
  cases h with
  | hue hx =>
    rw [checkComponent_of_not hx]
    rfl
  | saturation hx hy =>
    rw [checkComponent_eq_ok.2 (Number.inUnit_iff.2 hx), checkComponent_of_not hy]
    rfl
  | value hx hy hz =>
    rw [checkComponent_eq_ok.2 (Number.inUnit_iff.2 hx),
      checkComponent_eq_ok.2 (Number.inUnit_iff.2 hy), checkComponent_of_not hz]
    rfl

theorem FirstOutside.hsv {f : Fault} (h : FirstOutside x y z f) : Hsv.of x y z = .error f := by
  rw [Hsv.of, h.hsvChannels]
  rfl

theorem Hsv.exists_of_iff :
    (∃ c, of x y z = .ok c) ↔ x.IsPortion ∧ y.IsPortion ∧ z.IsPortion := by
  constructor
  · rintro ⟨c, hc⟩
    by_contra h
    obtain ⟨f, hf⟩ := exists_firstOutside h
    rw [hf.hsv] at hc
    cases hc
  · rintro ⟨hx, hy, hz⟩
    exact ⟨_, Outcome.bind_eq_ok.2 ⟨_, hsvChannels_eq_ok.2 ⟨⟨Number.inUnit_iff.2 hx,
      Number.inUnit_iff.2 hy, Number.inUnit_iff.2 hz⟩, rfl⟩, rfl⟩⟩

end components

/-- The laws of a color that is given by three numbers. -/
structure ComponentLaws (x y z : Number) : Prop where
  /-- It is accepted if all of them lie between zero and one. -/
  accepts_iff : (∃ c, Hsv.of x y z = .ok c) ↔ x.IsPortion ∧ y.IsPortion ∧ z.IsPortion
  /-- Then it can be written. -/
  written : ∀ c, Hsv.of x y z = .ok c → ∃ text, (PlainColor.hsv c).render = .ok text
  /-- Otherwise it is refused because of the first number that does not, which is a wrong value. -/
  refuses : ¬ (x.IsPortion ∧ y.IsPortion ∧ z.IsPortion) → ∃ f, FirstOutside x y z f ∧
    f.family = .value ∧ hsvChannels x y z = .error f ∧ Hsv.of x y z = .error f

theorem componentLaws (x y z : Number) : ComponentLaws x y z := by
  refine ⟨Hsv.exists_of_iff, fun c hc => ?_, fun h => ?_⟩
  · obtain ⟨color, hcolor⟩ := Hsv.exists_rgb hc
    exact ⟨_, Outcome.map_eq_ok.2 ⟨color, hcolor, rfl⟩⟩
  · obtain ⟨f, hf⟩ := exists_firstOutside h
    exact ⟨f, hf, hf.family, hf.hsvChannels, hf.hsv⟩

/-- **Colors are converted around the circle, and only numbers between zero and one are accepted
as components.**  The laws hold for all exact components, and for any numbers that are given. -/
theorem hsv_conversion_laws :
    (∀ h s v : Portion, ConversionLaws h s v) ∧ ∀ x y z : Number, ComponentLaws x y z :=
  ⟨conversionLaws, componentLaws⟩

end DotWriter
