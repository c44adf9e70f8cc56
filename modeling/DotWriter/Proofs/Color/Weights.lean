import DotWriter.Proofs.Color.Construction
import DotWriter.Proofs.Double.Written
import DotWriter.Proofs.Value.Alphabet

/-!
# The weights that a list of colors is written with

A list of colors refuses a weight that lifts the sum above one.  The sum is that of the weights as
they were given, and each of them is rounded when it is written, so the sum of what is written can
be larger.

* `ColorList.writtenWeights` reads the weights from the text of a list;
* `ColorList.run` is the list after any calls, of which some may be refused;
* `ColorList.Bounded` : the invariant of these calls.  What is written is counted in half hundredths,
  and the sum that is kept has them all but for its own rounding at each step;
* `ColorList.run_writtenWeights` : **the written weights exceed one by no more than half a hundredth
  for each of them that was rounded up**.
-/

namespace DotWriter

open Binary64 Double Outcome

namespace ColorList

/-! ### Reading the weights -/

/-- The weight in the text of an entry: what follows its semicolon. -/
def writtenWeight? (entry : List Char) : Option Rat :=
  (cutFirst ';' entry).bind fun (_, weight) => decimalValue? weight

/-- The weights in the text of a list of colors. -/
def writtenWeights (text : String) : List Rat :=
  (text.toList.splitOn ':').filterMap writtenWeight?

/-- The weights of a list. -/
def weights (l : ColorList) : List Double := l.entries.filterMap Prod.snd

theorem colon_not_mem_renderEntry {e : PlainColor × Option Double} {text : String}
    (h : renderEntry e = .ok text) : ':' ∉ text.toList := by
  obtain ⟨color, hcolor, h⟩ := bind_eq_ok.1 h
  have hmem := not_mem_of_forall (PlainColor.render_isColorChar hcolor) (c := ':') rfl
  rcases e with ⟨_, _ | w⟩ <;> cases h
  · exact hmem
  · have hw : ':' ∉ w.fixed.toList := not_mem_of_forall (isNumberText_fixed w) rfl
    simpa using ⟨hmem, hw⟩

theorem writtenWeight?_renderEntry {e : PlainColor × Option Double} {text : String}
    (h : renderEntry e = .ok text) : writtenWeight? text.toList = e.2.map written := by
  obtain ⟨color, hcolor, h⟩ := bind_eq_ok.1 h
  have hmem := not_mem_of_forall (PlainColor.render_isColorChar hcolor) (c := ';') rfl
  unfold writtenWeight?
  rcases e with ⟨_, _ | w⟩ <;> cases h
  · rw [cutFirst_of_not_mem hmem]
    rfl
  · have hchars : (color ++ ";" ++ w.fixed).toList = color.toList ++ ';' :: w.fixedChars := by
      simp [Double.fixed]
    rw [hchars, cutFirst_append hmem]
    exact w.decimalValue?_fixedChars

theorem filterMap_writtenWeight? {entries : List (PlainColor × Option Double)} {texts : List String}
    (h : List.Forall₂ (fun e text => renderEntry e = .ok text) entries texts) :
    (texts.map String.toList).filterMap writtenWeight? =
      (entries.filterMap Prod.snd).map written := by
  rw [List.filterMap_map, List.map_filterMap]
  induction h with
  | nil => rfl
  | cons he _ ih =>
    rw [List.filterMap_cons, List.filterMap_cons, ih, Function.comp_apply,
      writtenWeight?_renderEntry he]

/-- **What is read from the text of a list are its weights, rounded to hundredths.** -/
theorem writtenWeights_render {l : ColorList} {text : String} (h : l.render = .ok text) :
    writtenWeights text = l.weights.map written := by
  obtain ⟨texts, htexts, h⟩ := bind_eq_ok.1 h
  cases h
  rw [writtenWeights, weights, ← filterMap_writtenWeight? (mapM_eq_ok.1 htexts)]
  by_cases hne : texts = []
  · subst hne
    rfl
  · rw [splitOn_intercalate_toList rfl hne]
    intro t ht
    obtain ⟨e, -, he⟩ := exists_of_mem_mapM_ok htexts ht
    exact colon_not_mem_renderEntry he

/-! ### The sum that is kept -/

/-- The bounds of a weight. -/
theorem unitWeight?_spec {b : Binary64} {w : Double} (h : unitWeight? b = some w) :
    0 ≤ w.toRat ∧ w.toRat ≤ 1 := by
  unfold unitWeight? at h
  split at h
  · split_ifs at h with hw
    cases h
    exact hw
  · cases h

/-- A sum does not fall below the sum before it, and rounding takes only a small part of the
weight. -/
theorem sum?_spec {total weight s : Double} (h0 : 0 ≤ total.toRat) (h1 : total.toRat ≤ 1)
    (hw : 0 ≤ weight.toRat ∧ weight.toRat ≤ 1) (h : sum? total weight = some s) :
    total.toRat ≤ s.toRat ∧ total.toRat + weight.toRat ≤ s.toRat + 1 / 65536 ∧ s.toRat ≤ 1 := by
  have htwo : IsExact (2 : Rat) := by
    simpa using isExact_natCast (by decide : 2 ≤ 2 * blockSize)
  have hhigh : total.toRat + weight.toRat ≤ 2 := by linarith
  obtain ⟨low, _, hexact, -, hlow, hnear, rfl⟩ := exists_exact_around (by linarith) hhigh
  -- both bounds are exact, so rounding the sum keeps them
  obtain ⟨t, ht, htotal, -⟩ := @add_within total weight total.toRat 2 (by linarith) hhigh
    total.isExact htwo
  obtain ⟨u, hu, hbelow, -⟩ := @add_within total weight low 2 hlow hhigh hexact htwo
  obtain rfl : t = u := Binary64.finite.inj (ht.symm.trans hu)
  unfold sum? at h
  rw [ht] at h
  dsimp only at h
  split_ifs at h with hone
  cases h
  exact ⟨htotal, by linarith, not_lt.1 hone⟩

/-! ### What the calls preserve -/

/-- The number of weights that are written as larger ones. -/
def roundedUp (l : ColorList) : Nat := l.weights.countP fun w => decide w.RoundsUp

/-- The sum that is kept bounds what is written. -/
structure Bounded (l : ColorList) : Prop where
  nonneg : 0 ≤ l.weightSum.toRat
  le_one : l.weightSum.toRat ≤ 1
  /-- The written sum is a number of half hundredths, one of them for each weight that was rounded
  up.  The others are in the sum that is kept, but for what rounding took from them. -/
  written_sum : ∃ n : Nat, (l.weights.map written).sum = ((n : Rat) + l.roundedUp) / 200 ∧
    (n : Rat) * (1 / 200 - 1 / 65536) ≤ l.weightSum.toRat

theorem empty_bounded : empty.Bounded := by
  have hzero : empty.weightSum.toRat = 0 := by
    change Double.zero.toRat = 0
    decide +kernel
  exact ⟨hzero.ge, by rw [hzero]; norm_num, 0, by simp [weights, roundedUp, empty], by simp [hzero]⟩

/-- A weight that is accepted keeps the bound: if half hundredths are counted for it, rounding the
sum takes little from them. -/
theorem Bounded.add_weight {l : ColorList} (hl : l.Bounded) {w s : Double}
    (hw : 0 ≤ w.toRat ∧ w.toRat ≤ 1) (hs : sum? l.weightSum w = some s) (color : PlainColor) :
    Bounded ⟨l.entries ++ [(color, some w)], s⟩ := by
  obtain ⟨n, hsum, hn⟩ := hl.written_sum
  obtain ⟨k, hk, hle⟩ := exists_halfHundredths hw.1
  obtain ⟨htotal, hadded, hone⟩ := sum?_spec hl.nonneg hl.le_one hw hs
  have hweights : weights ⟨l.entries ++ [(color, some w)], s⟩ = l.weights ++ [w] := by
    simp [weights]
  refine ⟨hl.nonneg.trans htotal, hone, n + k, ?_, ?_⟩
  · rw [roundedUp, hweights, List.map_append, List.sum_append, hsum, List.map_cons, List.map_nil,
      List.sum_singleton, hk, List.countP_append, List.countP_singleton, roundedUp]
    simp only [decide_eq_true_eq]
    push_cast
    ring
  · change _ ≤ s.toRat
    push_cast
    rcases Nat.eq_zero_or_pos k with rfl | hpos
    · -- nothing is counted for the weight, and the sum does not fall
      rw [Nat.cast_zero, add_zero]
      exact hn.trans htotal
    · have hk1 : (1 : Rat) ≤ k := by exact_mod_cast hpos
      linarith

theorem Bounded.add {l : ColorList} (hl : l.Bounded) (color : PlainColor)
    (weight : Option Binary64) : (l.add color weight).2.Bounded := by
  unfold ColorList.add
  split
  · have hweights : weights { l with entries := l.entries ++ [(color, none)] } = l.weights := by
      simp [weights]
    refine ⟨hl.nonneg, hl.le_one, ?_⟩
    rw [roundedUp, hweights]
    exact hl.written_sum
  · split
    · exact hl
    · rename_i w hw
      split
      · exact hl
      · rename_i s hs
        exact hl.add_weight (unitWeight?_spec hw) hs color

theorem Bounded.addArguments {l : ColorList} (hl : l.Bounded) (args : List Datum) :
    (l.addArguments args).2.Bounded := by
  unfold ColorList.addArguments
  split
  · exact hl.add _ _
  · exact hl

/-- What rounding takes from a sum of one is less than half a hundredth. -/
theorem Bounded.written_le {l : ColorList} (hl : l.Bounded) :
    (l.weights.map written).sum ≤ 1 + (l.roundedUp : Rat) / 200 := by
  obtain ⟨n, hsum, hn⟩ := hl.written_sum
  have hlt : (n : Rat) < 201 := by linarith [hl.le_one]
  have hle : (n : Rat) ≤ 200 := by
    have : n < 201 := by exact_mod_cast hlt
    exact_mod_cast Nat.le_of_lt_succ this
  rw [hsum]
  linarith

/-! ### Calls -/

/-- The list that a call leaves, whether it is refused or not. -/
def attempt (l : ColorList) (args : List Datum) : ColorList := (l.addArguments args).2

/-- The list that is made by calls with the given arguments. -/
def run (calls : List (List Datum)) : ColorList := calls.foldl attempt empty

theorem run_bounded (calls : List (List Datum)) : (run calls).Bounded :=
  List.foldlRecOn calls attempt empty_bounded fun _ hl args _ => hl.addArguments args

/-- If the colors in the arguments were checked, those of the list were. -/
theorem run_isChecked {calls : List (List Datum)}
    (hcalls : ∀ args ∈ calls, ∀ c, .value (.color c) ∈ args → c.IsChecked) :
    (run calls).IsChecked :=
  List.foldlRecOn calls attempt empty_isChecked fun _ hl args hargs =>
    addArguments_isChecked hl (hcalls args hargs)

/-- **The weights that a list is written with are its weights, rounded to hundredths, and their sum
exceeds one by no more than half a hundredth for each of them that was rounded up.** -/
theorem run_writtenWeights {calls : List (List Datum)}
    (hcalls : ∀ args ∈ calls, ∀ c, .value (.color c) ∈ args → c.IsChecked) :
    ∃ text, (run calls).render = .ok text ∧
      writtenWeights text = (run calls).weights.map written ∧
      (writtenWeights text).sum ≤ 1 + ((run calls).roundedUp : Rat) / 200 := by
  obtain ⟨text, htext⟩ := exists_render (run_isChecked hcalls)
  have hweights := writtenWeights_render htext
  refine ⟨text, htext, hweights, ?_⟩
  rw [hweights]
  exact (run_bounded calls).written_le

/-- The arguments of a call with the name of a color and a weight. -/
def weighted (color : ColorName) (weight : Rat) : List Datum :=
  [.value (.color (.plain (.named color))), .raw (.float (Binary64.round weight))]

/-- One in three parts, of which two lie half-way between hundredths. -/
def threeParts : List (List Datum) :=
  [weighted ⟨"red", by decide +kernel⟩ (3 / 8), weighted ⟨"green", by decide +kernel⟩ (3 / 8),
    weighted ⟨"blue", by decide +kernel⟩ (1 / 4)]

theorem weighted_isChecked {color : ColorName} {weight : Rat} {c : Color}
    (h : .value (.color c) ∈ weighted color weight) : c.IsChecked := by
  simp only [weighted, List.mem_cons, Datum.value.injEq, Value.color.injEq, reduceCtorEq,
    List.not_mem_nil, or_false] at h
  subst h
  trivial

theorem threeParts_isChecked :
    ∀ args ∈ threeParts, ∀ c, .value (.color c) ∈ args → c.IsChecked := by
  intro args hargs c hc
  simp only [threeParts, List.mem_cons, List.not_mem_nil, or_false] at hargs
  rcases hargs with rfl | rfl | rfl <;> exact weighted_isChecked hc

theorem threeParts_weights : (run threeParts).weights.map written = [19 / 50, 19 / 50, 1 / 4] := by
  decide +kernel

/-- Two weights that are rounded up let the sum exceed one by a hundredth, as much as they may. -/
theorem threeParts_writtenWeights :
    (∀ args ∈ threeParts, ∀ c, .value (.color c) ∈ args → c.IsChecked) ∧
      ∃ text, (run threeParts).render = .ok text ∧
        writtenWeights text = [19 / 50, 19 / 50, 1 / 4] ∧
        (writtenWeights text).sum ≤ 1 + ((run threeParts).roundedUp : Rat) / 200 ∧
        (run threeParts).roundedUp = 2 := by
  obtain ⟨text, htext, hweights, hsum⟩ := run_writtenWeights threeParts_isChecked
  exact ⟨threeParts_isChecked, text, htext, hweights.trans threeParts_weights, hsum, by
    decide +kernel⟩

/-- The weights that are written may exceed one although the list refuses such a sum. -/
theorem writtenWeights_exceed_one :
    ¬ ∀ calls, (∀ args ∈ calls, ∀ c, .value (.color c) ∈ args → c.IsChecked) →
      ∀ text, (run calls).render = .ok text → (writtenWeights text).sum ≤ 1 := by
  intro h
  have hrender : (run threeParts).render = .ok "red;0.38:green;0.38:blue;0.25" := by decide +kernel
  have hle := h threeParts threeParts_isChecked _ hrender
  rw [writtenWeights_render hrender, threeParts_weights] at hle
  norm_num at hle

end ColorList

end DotWriter
