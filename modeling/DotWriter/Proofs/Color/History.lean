import DotWriter.Proofs.Color.Weights
import DotWriter.Proofs.Text.Split

/-!
# Lists of colors as histories of calls

A list of colors is made by calls, of which some are refused.  `accepted` are the calls that were
not, in order of time.

* `Brings` : the color and the weight that a call brings, `Sums` : what its weight does to the sum;
* `addArguments_eq_ok_iff` : what one call does, and when it is accepted;
* `entries_foldl` : **the entries of a list are those that the accepted calls brought**, in order;
* `foldlM_addText_eq_ok_iff` : **a text is read by one call for each part of it**, and all of them
  have to be accepted;
* `history_laws` : the laws of every list that can be made, gathered in `RunLaws`, and of every text
  of such a list, in `TextLaws`.
-/

namespace DotWriter

open Outcome

namespace ColorList

/-! ### One call -/

/-- The arguments of a call bring a color, and a weight or none. -/
inductive Brings : List Datum → PlainColor × Option Double → Prop
  | plain (c : PlainColor) : Brings [.value (.color (.plain c))] (c, none)
  | null (c : PlainColor) : Brings [.value (.color (.plain c)), .raw .null] (c, none)
  | int (c : PlainColor) {n : Int} {w : Double} (h : Binary64.ofInt n = .finite w) :
    Brings [.value (.color (.plain c)), .raw (.int n)] (c, some w)
  | float (c : PlainColor) (w : Double) :
    Brings [.value (.color (.plain c)), .raw (.float (.finite w))] (c, some w)

/-- A weight that is admitted, or none, leads from one sum to another. -/
inductive Sums (total : Double) : Option Double → Double → Prop
  | none : Sums total none total
  | weight {w s : Double} (hw : 0 ≤ w.toRat ∧ w.toRat ≤ 1)
    (hs : (total : Binary64) + (w : Binary64) = .finite s) (hone : s.toRat ≤ 1) :
    Sums total (some w) s

theorem unitWeight?_eq_some_iff {b : Binary64} {w : Double} :
    unitWeight? b = some w ↔ b = .finite w ∧ 0 ≤ w.toRat ∧ w.toRat ≤ 1 := by
  constructor
  · intro h
    have hw := unitWeight?_spec h
    unfold unitWeight? at h
    split at h
    · split_ifs at h
      cases h
      exact ⟨rfl, hw⟩
    · cases h
  · rintro ⟨rfl, hw⟩
    exact if_pos hw

theorem sum?_eq_some_iff {total w s : Double} :
    sum? total w = some s ↔
      (total : Binary64) + (w : Binary64) = .finite s ∧ s.toRat ≤ 1 := by
  unfold sum?
  split
  · rename_i t ht
    rw [ht]
    split_ifs with hone
    · constructor
      · rintro ⟨⟩
      · rintro ⟨⟨⟩, hle⟩
        exact absurd hone (not_lt.2 hle)
    · constructor
      · rintro ⟨⟩
        exact ⟨rfl, not_lt.1 hone⟩
      · rintro ⟨⟨⟩, -⟩
        rfl
  · rename_i hnot
    constructor
    · rintro ⟨⟩
    · rintro ⟨hs, -⟩
      exact absurd hs (hnot s)

theorem add_eq_ok_iff {l l' : ColorList} {color : PlainColor} {weight : Option Binary64} :
    l.add color weight = (.ok (), l') ↔ ∃ w s, weight = w.map Binary64.finite ∧
      Sums l.weightSum w s ∧ l' = ⟨l.entries ++ [(color, w)], s⟩ := by
  unfold add
  constructor
  · intro h
    split at h
    · cases h
      exact ⟨none, l.weightSum, rfl, .none, rfl⟩
    · split at h
      · cases h
      · rename_i w hw
        split at h
        · cases h
        · rename_i s hs
          cases h
          obtain ⟨rfl, hunit⟩ := unitWeight?_eq_some_iff.1 hw
          obtain ⟨hsum, hone⟩ := sum?_eq_some_iff.1 hs
          exact ⟨some w, s, rfl, .weight hunit hsum hone, rfl⟩
  · rintro ⟨_, s, rfl, hs, rfl⟩
    cases hs with
    | none => rfl
    | weight hw hsum hone =>
      simp only [Option.map_some, unitWeight?_eq_some_iff.2 ⟨rfl, hw⟩,
        sum?_eq_some_iff.2 ⟨hsum, hone⟩]

/-- A color that is refused leaves the list as it was. -/
theorem add_eq_error {l l' : ColorList} {color : PlainColor} {weight : Option Binary64} {f : Fault}
    (h : l.add color weight = (.error f, l')) : l' = l := by
  unfold add at h
  split at h
  · cases h
  · split at h
    · cases h
      rfl
    · split at h
      · cases h
        rfl
      · cases h

theorem ofInt_eq_ok_iff {n : Int} {w : Double} :
    Double.ofInt n = .ok w ↔ Binary64.ofInt n = .finite w := by
  unfold Double.ofInt
  constructor
  · intro h
    split at h
    · rename_i x hx
      cases h
      exact hx
    · cases h
  · intro h
    rw [h]

/-- The weight of a call is a number, or there is none. -/
theorem Brings.of_weight {c : PlainColor} {d : Datum} {w : Option Double}
    (h : d.weight? = .ok (w.map Binary64.finite)) :
    Brings [.value (.color (.plain c)), d] (c, w) := by
  unfold Datum.weight? at h
  split at h
  · cases w with
    | none => exact .null c
    | some w => cases h
  · obtain ⟨x, hx, h⟩ := bind_eq_ok.1 h
    cases w with
    | none => cases h
    | some w =>
      cases h
      exact .int c (ofInt_eq_ok_iff.1 hx)
  · cases w with
    | none => cases h
    | some w =>
      cases h
      exact .float c w
  · exact absurd h (Datum.refuse_ne_ok _)

theorem weightedColor_eq_ok_iff {args : List Datum} {c : PlainColor} {w : Option Double} :
    Datum.weightedColor args = .ok (c, w.map Binary64.finite) ↔ Brings args (c, w) := by
  constructor
  · intro h
    unfold Datum.weightedColor at h
    split at h
    · obtain ⟨c', hc, hpair⟩ := bind_eq_ok.1 h
      obtain rfl := Datum.entryColor_eq_ok.1 hc
      cases w with
      | none =>
        cases hpair
        exact .plain _
      | some w => cases hpair
    · obtain ⟨c', hc, hrest⟩ := bind_eq_ok.1 h
      obtain rfl := Datum.entryColor_eq_ok.1 hc
      obtain ⟨weight, hweight, hpair⟩ := bind_eq_ok.1 hrest
      cases hpair
      exact .of_weight hweight
    · cases h
  · intro h
    cases h with
    | plain c => rfl
    | null c => rfl
    | int c h =>
      refine bind_eq_ok.2 ⟨c, rfl, bind_eq_ok.2 ⟨_, ?_, rfl⟩⟩
      exact bind_eq_ok.2 ⟨_, ofInt_eq_ok_iff.2 h, rfl⟩
    | float c w => rfl

/-- **What one call does.**  It is accepted if it brings a color, and a weight that is admitted. -/
theorem addArguments_eq_ok_iff {l l' : ColorList} {args : List Datum} :
    l.addArguments args = (.ok (), l') ↔
      ∃ e s, Brings args e ∧ Sums l.weightSum e.2 s ∧ l' = ⟨l.entries ++ [e], s⟩ := by
  unfold addArguments
  constructor
  · intro h
    split at h
    · rename_i c weight hargs
      obtain ⟨w, s, rfl, hs, rfl⟩ := add_eq_ok_iff.1 h
      exact ⟨(c, w), s, weightedColor_eq_ok_iff.1 hargs, hs, rfl⟩
    · cases h
  · rintro ⟨⟨c, w⟩, s, he, hs, rfl⟩
    rw [weightedColor_eq_ok_iff.2 he]
    exact add_eq_ok_iff.2 ⟨w, s, rfl, hs, rfl⟩

/-- A call that is refused leaves the list as it was. -/
theorem addArguments_eq_error {l l' : ColorList} {args : List Datum} {f : Fault}
    (h : l.addArguments args = (.error f, l')) : l' = l := by
  unfold addArguments at h
  split at h
  · exact add_eq_error h
  · cases h
    rfl

/-! ### Runs -/

/-- The calls that are accepted, in order of time. -/
def accepted (l : ColorList) : List (List Datum) → List (List Datum)
  | [] => []
  | args :: calls =>
    match l.addArguments args with
    | (.ok _, l') => args :: accepted l' calls
    | (.error _, l') => accepted l' calls

theorem accepted_sublist (l : ColorList) (calls : List (List Datum)) :
    (accepted l calls).Sublist calls := by
  induction calls generalizing l with
  | nil => exact .slnil
  | cons args calls ih =>
    rw [accepted]
    split
    · exact (ih _).cons_cons _
    · exact (ih _).cons _

/-- **The entries of a list are those that the accepted calls brought**, in order. -/
theorem entries_foldl (l : ColorList) (calls : List (List Datum)) :
    ∃ added, (calls.foldl attempt l).entries = l.entries ++ added ∧
      List.Forall₂ Brings (accepted l calls) added := by
  induction calls generalizing l with
  | nil => exact ⟨[], (List.append_nil _).symm, .nil⟩
  | cons args calls ih =>
    rw [List.foldl_cons, accepted, attempt]
    rcases h : l.addArguments args with ⟨f | _, l'⟩
    · obtain rfl := addArguments_eq_error h
      exact ih l'
    · obtain ⟨e, s, he, -, rfl⟩ := addArguments_eq_ok_iff.1 h
      obtain ⟨added, hentries, hadded⟩ := ih ⟨l.entries ++ [e], s⟩
      rw [List.append_assoc] at hentries
      exact ⟨e :: added, hentries, .cons he hadded⟩

/-- The sum of weights from left to right, rounded at every step. -/
def total (ws : List Double) : Binary64 :=
  ws.foldl (fun (sum : Binary64) (w : Double) => sum + w) Double.zero

/-- The sum that is kept is that of the weights, which are all admitted. -/
structure Consistent (l : ColorList) : Prop where
  sum_eq : (l.weightSum : Binary64) = total l.weights
  weights_unit : ∀ w ∈ l.weights, 0 ≤ w.toRat ∧ w.toRat ≤ 1

theorem Consistent.addArguments {l : ColorList} (hl : l.Consistent) (args : List Datum) :
    (l.addArguments args).2.Consistent := by
  rcases h : l.addArguments args with ⟨f | _, l'⟩
  · obtain rfl := addArguments_eq_error h
    exact hl
  obtain ⟨⟨c, w⟩, s, -, hs, rfl⟩ := addArguments_eq_ok_iff.1 h
  have hweights : weights ⟨l.entries ++ [(c, w)], s⟩ = l.weights ++ w.toList := by
    cases w <;> simp [weights]
  cases hs with
  | none =>
    rw [Option.toList_none, List.append_nil] at hweights
    exact ⟨by rw [hweights]; exact hl.sum_eq, by rw [hweights]; exact hl.weights_unit⟩
  | weight hw hsum hone =>
    constructor
    · rw [hweights, total, List.foldl_append]
      change _ = total l.weights + _
      rw [← hl.sum_eq]
      exact hsum.symm
    · rw [hweights]
      intro v hv
      rcases List.mem_append.1 hv with hv | hv
      · exact hl.weights_unit v hv
      · cases List.mem_singleton.1 hv
        exact hw

theorem run_consistent (calls : List (List Datum)) : (run calls).Consistent :=
  List.foldlRecOn calls attempt ⟨rfl, fun _ h => absurd h List.not_mem_nil⟩ fun _ hl args _ =>
    hl.addArguments args

/-- The laws of the list that is made by the given calls. -/
structure RunLaws (calls : List (List Datum)) : Prop where
  /-- The entries are what the accepted calls brought, in order. -/
  entries : List.Forall₂ Brings (accepted empty calls) (run calls).entries
  /-- The sum that is kept is that of the weights, from left to right. -/
  sum_eq : ((run calls).weightSum : Binary64) = total (run calls).weights
  weights_unit : ∀ w ∈ (run calls).weights, 0 ≤ w.toRat ∧ w.toRat ≤ 1
  sum_le : (run calls).weightSum.toRat ≤ 1
  /-- One more call is accepted if it brings a color and a weight that is admitted, or none. -/
  accepts_iff : ∀ args, (∃ l, (run calls).addArguments args = (.ok (), l)) ↔
    ∃ e s, Brings args e ∧ Sums (run calls).weightSum e.2 s
  /-- A color without weight is always accepted. -/
  unweighted : ∀ c : PlainColor, ∃ l,
    (run calls).addArguments [.value (.color (.plain c))] = (.ok (), l)
  /-- A list of colors never is. -/
  nested : ∀ (inner : ColorList) (rest : List Datum) (l : ColorList),
    (run calls).addArguments (.value (.color (.list inner)) :: rest) ≠ (.ok (), l)
  /-- A call that is refused leaves the list as it was. -/
  refused : ∀ args f l, (run calls).addArguments args = (.error f, l) → l = run calls

theorem runLaws (calls : List (List Datum)) : RunLaws calls := by
  obtain ⟨added, hentries, hadded⟩ := entries_foldl empty calls
  have hconsistent := run_consistent calls
  have haccepts : ∀ args, (∃ l, (run calls).addArguments args = (.ok (), l)) ↔
      ∃ e s, Brings args e ∧ Sums (run calls).weightSum e.2 s := by
    intro args
    constructor
    · rintro ⟨l, h⟩
      obtain ⟨e, s, he, hs, -⟩ := addArguments_eq_ok_iff.1 h
      exact ⟨e, s, he, hs⟩
    · rintro ⟨e, s, he, hs⟩
      exact ⟨_, addArguments_eq_ok_iff.2 ⟨e, s, he, hs, rfl⟩⟩
  refine ⟨?_, hconsistent.sum_eq, hconsistent.weights_unit, (run_bounded calls).le_one, haccepts,
    fun c => (haccepts _).2 ⟨_, _, .plain c, .none⟩, ?_, fun args f l => addArguments_eq_error⟩
  · have hrun : (run calls).entries = added := hentries
    rwa [hrun]
  · intro inner rest l h
    obtain ⟨e, s, he, -⟩ := addArguments_eq_ok_iff.1 h
    cases he

/-! ### Texts -/

/-- A part of a text stands for a call: a color, with the weight after its first semicolon. -/
inductive ReadsCall : List Char → List Datum → Prop
  | plain {part : List Char} {c : PlainColor} (hpart : ';' ∉ part)
    (hc : readPlainColor part = .ok c) : ReadsCall part [.value (.color (.plain c))]
  | weighted {color weight : List Char} {c : PlainColor} {w : Binary64} (hcolor : ';' ∉ color)
    (hc : readPlainColor color = .ok c) (hw : readDouble? weight = some w) :
    ReadsCall (color ++ ';' :: weight) [.value (.color (.plain c)), .raw (.float w)]

theorem addText_eq_ok_iff {l l' : ColorList} {part : List Char} :
    l.addText part = .ok l' ↔
      ∃ args, ReadsCall part args ∧ l.addArguments args = (.ok (), l') := by
  unfold addText
  constructor
  · intro h
    by_cases hpart : ';' ∈ part
    · obtain ⟨color, weight, rfl, hcolor⟩ := List.eq_append_cons_of_mem hpart
      rw [cutFirst_append hcolor] at h
      obtain ⟨c, hc, h⟩ := bind_eq_ok.1 h
      split at h
      · rename_i w hw
        exact ⟨_, .weighted hcolor hc hw, leaving_eq_ok.1 h⟩
      · cases h
    · rw [cutFirst_of_not_mem hpart] at h
      obtain ⟨c, hc, h⟩ := bind_eq_ok.1 h
      exact ⟨_, .plain hpart hc, leaving_eq_ok.1 h⟩
  · rintro ⟨_, hread, h⟩
    cases hread with
    | plain hpart hc =>
      rw [cutFirst_of_not_mem hpart]
      exact bind_eq_ok.2 ⟨_, hc, leaving_eq_ok.2 h⟩
    | weighted hcolor hc hw =>
      rw [cutFirst_append hcolor]
      refine bind_eq_ok.2 ⟨_, hc, ?_⟩
      rw [hw]
      exact leaving_eq_ok.2 h

/-- **A text is read by one call for each part of it**, and all of them have to be accepted. -/
theorem foldlM_addText_eq_ok_iff {l l' : ColorList} {parts : List (List Char)} :
    parts.foldlM addText l = .ok l' ↔ ∃ calls, List.Forall₂ ReadsCall parts calls ∧
      accepted l calls = calls ∧ calls.foldl attempt l = l' := by
  induction parts generalizing l with
  | nil =>
    constructor
    · rintro ⟨⟩
      exact ⟨[], .nil, rfl, rfl⟩
    · rintro ⟨_, ⟨⟩, -, rfl⟩
      rfl
  | cons part parts ih =>
    rw [List.foldlM_cons, bind_eq_ok]
    constructor
    · rintro ⟨l₁, hpart, hparts⟩
      obtain ⟨args, hread, hadd⟩ := addText_eq_ok_iff.1 hpart
      obtain ⟨calls, hreads, haccepted, hrun⟩ := ih.1 hparts
      refine ⟨args :: calls, .cons hread hreads, ?_, ?_⟩
      · rw [accepted, hadd]
        exact congrArg _ haccepted
      · rw [List.foldl_cons, attempt, hadd]
        exact hrun
    · rintro ⟨_, hreads, haccepted, hrun⟩
      cases hreads with
      | cons hread hreads =>
        rename_i args calls
        rw [accepted] at haccepted
        rw [List.foldl_cons, attempt] at hrun
        rcases hadd : l.addArguments args with ⟨f | _, l₁⟩
        · -- the calls that are accepted are fewer
          rw [hadd] at haccepted
          have hfewer : accepted l₁ calls = args :: calls := haccepted
          have hle := (accepted_sublist l₁ calls).length_le
          rw [hfewer, List.length_cons] at hle
          omega
        · rw [hadd] at haccepted hrun
          exact ⟨l₁, addText_eq_ok_iff.2 ⟨args, hread, hadd⟩,
            ih.2 ⟨calls, hreads, (List.cons.inj haccepted).2, hrun⟩⟩

/-- The laws of the text of a list of colors. -/
structure TextLaws (s : String) : Prop where
  /-- It is read as the list that is made by the calls of its parts, if none of them is refused. -/
  read_iff : ':' ∈ s.toList ∨ ';' ∈ s.toList → ∀ c, readColor (.text s) = .ok c ↔
    ∃ calls, List.Forall₂ ReadsCall (s.toList.splitOn ':') calls ∧
      accepted empty calls = calls ∧ c = .list (run calls)

theorem textLaws (s : String) : TextLaws s := by
  refine ⟨fun hs c => ?_⟩
  rw [readColor, readColorText, if_pos hs, map_eq_ok]
  constructor
  · rintro ⟨l, hl, rfl⟩
    obtain ⟨calls, hreads, haccepted, rfl⟩ := foldlM_addText_eq_ok_iff.1 hl
    exact ⟨calls, hreads, haccepted, rfl⟩
  · rintro ⟨calls, hreads, haccepted, rfl⟩
    exact ⟨_, foldlM_addText_eq_ok_iff.2 ⟨calls, hreads, haccepted, rfl⟩, rfl⟩

/-- **Lists of colors are what their calls make of them.**  The laws hold after any calls, and for
any text. -/
theorem history_laws : (∀ calls, RunLaws calls) ∧ ∀ s, TextLaws s := ⟨runLaws, textLaws⟩

end ColorList

end DotWriter
