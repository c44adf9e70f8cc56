import DotWriter.Proofs.Attribute.Check
import Mathlib.Data.List.Induction
import Mathlib.Data.List.Pairwise

/-!
# Tables as histories of writes

A table is built by a sequence of calls of `Table.add`, some of which are refused.  `Table.run` is
the table after such a sequence, and `successes` are the writes that were not refused, in order of
time.  A write supersedes the earlier ones of the same attribute and of the same slot.

* `Table.add_eq_ok` : what one call does, and when it succeeds;
* `run_entries` : **a table holds the successful writes that no later one supersedes**, in order of
  time;
* `Table.run_lawful` : the laws of every table that can be reached, gathered in `Table.Lawful`.
-/

namespace DotWriter

/-- A call that writes an attribute: the attribute, and what is given as its value. -/
abbrev Write := AttributeId × Datum

/-- A write of `new` takes away an earlier one of `old`: they are the same attribute or share a
slot. -/
def Supersedes (new old : AttributeId) : Prop :=
  new = old ∨ new.slot? ≠ none ∧ new.slot? = old.slot?

instance (new old : AttributeId) : Decidable (Supersedes new old) :=
  inferInstanceAs (Decidable (_ ∨ _))

/-- The writes that no later one supersedes. -/
def lastWrites {α : Type} : List (AttributeId × α) → List (AttributeId × α)
  | [] => []
  | w :: ws => if ∃ later ∈ ws, Supersedes later.1 w.1 then lastWrites ws else w :: lastWrites ws

/-- The text that a call writes into a table for the attributes `legal`, unless it is refused. -/
def Write.text? (legal : List AttributeId) (w : Write) : Option String :=
  if w.1 ∈ legal then (check w.1 w.2).toOption else none

/-- The writes that are not refused, with the texts that their checks return. -/
def successes (legal : List AttributeId) (ws : List Write) : List (AttributeId × String) :=
  ws.filterMap fun w => (w.text? legal).map (w.1, ·)

namespace Table

/-- The table that a call leaves, whether it is refused or not. -/
def attempt (t : Table) (w : Write) : Table := (t.add w.1 w.2).2

/-- The table after calls on a new one for the attributes `legal`. -/
def run (legal : List AttributeId) (ws : List Write) : Table := ws.foldl attempt (ofLegal legal)

end Table

/-! ### Superseding -/

theorem Supersedes.symm {a b : AttributeId} (h : Supersedes a b) : Supersedes b a := by
  rcases h with rfl | ⟨hs, heq⟩
  · exact .inl rfl
  · exact .inr ⟨heq ▸ hs, heq.symm⟩

theorem replaces_eq_true {new old : AttributeId} :
    new.replaces old = true ↔ Supersedes new old := by
  simp only [AttributeId.replaces, Supersedes, Bool.or_eq_true, beq_iff_eq, Bool.and_eq_true,
    Option.isSome_iff_ne_none]
  exact or_congr eq_comm (and_congr_right fun _ => eq_comm)

section lastWrites

variable {α : Type}

theorem mem_of_mem_lastWrites {ws : List (AttributeId × α)} {w : AttributeId × α}
    (h : w ∈ lastWrites ws) : w ∈ ws := by
  induction ws with
  | nil => exact h
  | cons v ws ih =>
    rw [lastWrites] at h
    split_ifs at h with hv
    · exact List.mem_cons_of_mem _ (ih h)
    · rcases List.mem_cons.1 h with rfl | h
      · exact List.mem_cons_self
      · exact List.mem_cons_of_mem _ (ih h)

/-- One more write takes away those that it supersedes and comes last. -/
theorem lastWrites_concat (ws : List (AttributeId × α)) (w : AttributeId × α) :
    lastWrites (ws ++ [w]) = (lastWrites ws).filter (fun e => ¬ Supersedes w.1 e.1) ++ [w] := by
  induction ws with
  | nil => simp [lastWrites]
  | cons v ws ih =>
    -- the first write is superseded by an old write or by the new one
    have hor : (∃ later ∈ ws ++ [w], Supersedes later.1 v.1) ↔
        (∃ later ∈ ws, Supersedes later.1 v.1) ∨ Supersedes w.1 v.1 := by
      simp only [List.mem_append, List.mem_singleton, or_and_right, exists_or, exists_eq_left]
    rw [List.cons_append, lastWrites, lastWrites, ih]
    by_cases hv : ∃ later ∈ ws, Supersedes later.1 v.1
    · rw [if_pos (hor.2 (.inl hv)), if_pos hv]
    · rw [if_neg hv]
      by_cases hw : Supersedes w.1 v.1
      · rw [if_pos (hor.2 (.inr hw)), List.filter_cons_of_neg (by simpa using hw)]
      · rw [if_neg fun h => (hor.1 h).elim hv hw, List.filter_cons_of_pos (by simpa using hw)]
        rfl

/-- Of two writes that are left, neither supersedes the other. -/
theorem lastWrites_pairwise (ws : List (AttributeId × α)) :
    (lastWrites ws).Pairwise fun e f => ¬ Supersedes e.1 f.1 := by
  induction ws with
  | nil => exact .nil
  | cons w ws ih =>
    rw [lastWrites]
    split_ifs with hw
    · exact ih
    · refine .cons (fun f hf hs => hw ⟨f, mem_of_mem_lastWrites hf, hs.symm⟩) ih

end lastWrites

/-! ### One call -/

theorem mem_union {attr : AttributeId} {legal : List AttributeId} :
    attr ∈ union [legal] ↔ attr ∈ legal := by
  simp [union, List.mem_eraseDups]

theorem check_eq_ok {attr : AttributeId} {d : Datum} {text : String} :
    check attr d = .ok text ↔ ∃ v, d = .value v ∧ checkValue attr v = .ok text := by
  cases d <;> simp [check]

namespace Table

theorem add_eq_ok {t t' : Table} {attr : AttributeId} {d : Datum} :
    t.add attr d = (.ok (), t') ↔
      attr ∈ t.legal ∧ ∃ text, check attr d = .ok text ∧ t.put attr text = t' := by
  unfold add supports
  by_cases hl : attr ∈ t.legal
  · rw [if_pos (List.contains_iff_mem.2 hl)]
    cases check attr d with
    | error f => simp
    | ok text => simp [hl]
  · rw [if_neg fun h => hl (List.contains_iff_mem.1 h)]
    simp [hl]

/-- A call that is refused leaves the table as it was. -/
theorem add_eq_error {t t' : Table} {attr : AttributeId} {d : Datum} {f : Fault}
    (h : t.add attr d = (.error f, t')) : t' = t := by
  unfold add at h
  split at h
  · split at h <;> cases h
    rfl
  · cases h
    rfl

theorem put_entries (t : Table) (attr : AttributeId) (text : String) :
    (t.put attr text).entries =
      t.entries.filter (fun e => ¬ Supersedes attr e.1) ++ [(attr, text)] := by
  have hfun : (fun e : AttributeId × String => !attr.replaces e.1) =
      fun e => decide (¬ Supersedes attr e.1) := by
    funext e
    simp only [decide_not, ← replaces_eq_true, Bool.decide_coe]
  rw [put, hfun]

/-- **A call writes its entry, or leaves the table as it is.** -/
theorem attempt_eq (t : Table) (w : Write) :
    t.attempt w = ((w.text? t.legal).map (t.put w.1)).getD t := by
  unfold attempt add supports Write.text?
  by_cases hl : w.1 ∈ t.legal
  · rw [if_pos (List.contains_iff_mem.2 hl), if_pos hl]
    cases check w.1 w.2 <;> rfl
  · rw [if_neg fun h => hl (List.contains_iff_mem.1 h), if_neg hl]
    rfl

theorem attempt_legal (t : Table) (w : Write) : (t.attempt w).legal = t.legal := by
  rw [attempt_eq]
  cases w.text? t.legal <;> rfl

/-! ### Runs -/

variable (legal : List AttributeId) (ws : List Write)

theorem run_concat (w : Write) : run legal (ws ++ [w]) = (run legal ws).attempt w := by
  simp [run]

theorem run_legal : (run legal ws).legal = union [legal] := by
  induction ws using List.reverseRecOn with
  | nil => rfl
  | append_singleton ws w ih => rw [run_concat, attempt_legal, ih]

theorem mem_run_legal {legal : List AttributeId} {ws : List Write} {attr : AttributeId} :
    attr ∈ (run legal ws).legal ↔ attr ∈ legal := by
  rw [run_legal, mem_union]

theorem text?_run_legal (w : Write) : w.text? (run legal ws).legal = w.text? legal := by
  simp only [Write.text?, mem_run_legal]

end Table

open Table

/-- **A table holds the successful writes that no later one supersedes**, in order of time. -/
theorem run_entries (legal : List AttributeId) (ws : List Write) :
    (run legal ws).entries = lastWrites (successes legal ws) := by
  induction ws using List.reverseRecOn with
  | nil => rfl
  | append_singleton ws w ih =>
    rw [run_concat, attempt_eq, text?_run_legal, successes, List.filterMap_append]
    cases hw : w.text? legal with
    | none => simpa [hw, successes] using ih
    | some text =>
      simp only [List.filterMap_cons, List.filterMap_nil, hw, Option.map_some, Option.getD_some,
        put_entries, ih, lastWrites_concat]
      rfl

/-- The laws of the table after the calls `ws` on a new one for the attributes `legal`. -/
structure Table.Lawful (legal : List AttributeId) (ws : List Write) : Prop where
  /-- The entries are the successful writes that no later one supersedes, in order of time. -/
  entries_eq : (run legal ws).entries = lastWrites (successes legal ws)
  /-- One more call succeeds for a supported attribute and an admitted value that can be written,
  and for nothing else. -/
  add_iff : ∀ attr d, (∃ t, (run legal ws).add attr d = (.ok (), t)) ↔
    attr ∈ legal ∧ ∃ v, d = .value v ∧ attr.spec.Admits v ∧ ∃ text, storedText attr v = .ok text
  /-- A call that is refused leaves the table as it was. -/
  refused : ∀ attr d f t, (run legal ws).add attr d = (.error f, t) → t = run legal ws
  distinct : ((run legal ws).entries.map Prod.fst).Nodup
  supported : ∀ e ∈ (run legal ws).entries, e.1 ∈ legal
  one_per_slot : ∀ e ∈ (run legal ws).entries, ∀ f ∈ (run legal ws).entries,
    e.1.slot? ≠ none → e.1.slot? = f.1.slot? → e = f
  render_eq : (run legal ws).render =
    String.join ((run legal ws).entries.map fun e => " " ++ e.1.name ++ "=" ++ e.2)

theorem fst_mem_of_mem_successes {legal : List AttributeId} {ws : List Write}
    {e : AttributeId × String} (h : e ∈ successes legal ws) : e.1 ∈ legal := by
  obtain ⟨w, -, hw⟩ := List.mem_filterMap.1 h
  obtain ⟨text, ht, rfl⟩ := Option.map_eq_some_iff.1 hw
  unfold Write.text? at ht
  split_ifs at ht with hl
  exact hl

theorem Table.add_run_iff {legal : List AttributeId} {ws : List Write} {attr : AttributeId}
    {d : Datum} : (∃ t, (run legal ws).add attr d = (.ok (), t)) ↔
      attr ∈ legal ∧ ∃ v, d = .value v ∧ attr.spec.Admits v ∧
        ∃ text, storedText attr v = .ok text := by
  simp only [add_eq_ok, mem_run_legal, check_eq_ok, checkValue_eq_ok]
  constructor
  · rintro ⟨t, hl, text, ⟨v, hd, hv, ht⟩, -⟩
    exact ⟨hl, v, hd, hv, text, ht⟩
  · rintro ⟨hl, v, hd, hv, text, ht⟩
    exact ⟨_, hl, text, ⟨v, hd, hv, ht⟩, rfl⟩

theorem Table.mem_legal_of_mem_entries {legal : List AttributeId} {ws : List Write}
    {e : AttributeId × String} (h : e ∈ (run legal ws).entries) : e.1 ∈ legal := by
  rw [run_entries] at h
  exact fst_mem_of_mem_successes (mem_of_mem_lastWrites h)

/-- The text of an entry was checked. -/
theorem Table.exists_value_of_mem_entries {legal : List AttributeId} {ws : List Write}
    {e : AttributeId × String} (h : e ∈ (run legal ws).entries) :
    ∃ v, checkValue e.1 v = .ok e.2 := by
  rw [run_entries] at h
  obtain ⟨w, -, hw⟩ := List.mem_filterMap.1 (mem_of_mem_lastWrites h)
  obtain ⟨text, ht, rfl⟩ := Option.map_eq_some_iff.1 hw
  unfold Write.text? at ht
  split_ifs at ht with hl
  obtain ⟨v, -, hv⟩ := check_eq_ok.1 (Outcome.toOption_eq_some.1 ht)
  exact ⟨v, hv⟩

/-- A table is written entry by entry, each with a blank in front. -/
theorem Table.render_run (legal : List AttributeId) (ws : List Write) :
    (run legal ws).render = String.join ((run legal ws).entries.map renderEntry) := by
  unfold render
  split_ifs with hl
  · -- a table that supports nothing has no entries
    have hnil : (run legal ws).entries = [] := by
      refine List.eq_nil_iff_forall_not_mem.2 fun e he => ?_
      have hmem : e.1 ∈ (run legal ws).legal := mem_run_legal.2 (mem_legal_of_mem_entries he)
      rw [List.isEmpty_iff.1 hl] at hmem
      exact absurd hmem List.not_mem_nil
    rw [hnil]
    rfl
  · rfl

/-- The characters of an entry. -/
def entryChars (e : AttributeId × String) : List Char :=
  ' ' :: (e.1.name.toList ++ '=' :: e.2.toList)

theorem Table.toList_render_run (legal : List AttributeId) (ws : List Write) :
    (run legal ws).render.toList = (run legal ws).entries.flatMap entryChars := by
  rw [render_run, String.toList_join, List.flatMap_map]
  simp only [renderEntry, String.toList_append, String.reduceToList, List.cons_append,
    List.nil_append, List.append_assoc]
  rfl

/-- **The run of a table.**  Whatever is written to a new table, in whatever order and with whatever
refusals in between, it obeys `Table.Lawful`. -/
theorem Table.run_lawful (legal : List AttributeId) (ws : List Write) : Lawful legal ws := by
  have hpair := lastWrites_pairwise (successes legal ws)
  rw [← run_entries] at hpair
  refine ⟨run_entries legal ws, fun attr d => add_run_iff, fun attr d f t => add_eq_error, ?_,
    fun e => mem_legal_of_mem_entries, ?_, ?_⟩
  · rw [List.Nodup, List.pairwise_map]
    exact hpair.imp fun h heq => h (.inl heq)
  · intro e he f hf hs heq
    have : Std.Symm fun e f : AttributeId × String => ¬ Supersedes e.1 f.1 :=
      ⟨fun _ _ h hsup => h hsup.symm⟩
    by_contra hne
    exact hpair.forall he hf hne (.inr ⟨hs, heq⟩)
  · exact render_run legal ws

end DotWriter
