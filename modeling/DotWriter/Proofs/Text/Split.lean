import DotWriter.Text.Blank
import Mathlib.Tactic.SplitIfs

/-!
# Joining and splitting texts

Texts that are joined with a separator are found again by splitting, if the separator occurs in
none of them.

* `splitOn_intercalate_toList`, `words_intercalate` : all parts of a text that was joined;
* `exists_part_of_infix` : what holds no separator stays in one part;
* `cutFirst_append`, `cutLast_append` : what stands on both sides of a separator;
* `trim_eq_self`, `infix_trim` : what is left if both ends of a text are trimmed.
-/

namespace DotWriter

/-- A character that is not of the kind of all characters of a text does not occur in it. -/
theorem not_mem_of_forall {p : Char → Bool} {cs : List Char} (h : ∀ c ∈ cs, p c = true) {c : Char}
    (hc : p c = false) : c ∉ cs := by
  intro hmem
  rw [h c hmem] at hc
  cases hc

/-! ### Blanks -/

/-- A text with nothing to drop at its ends stays as it is. -/
theorem trim_eq_self {drop : Char → Bool} {cs : List Char}
    (hfirst : ∀ c ∈ cs.head?, drop c = false) (hlast : ∀ c ∈ cs.getLast?, drop c = false) :
    trim drop cs = cs := by
  have hkeep : ∀ ds : List Char, (∀ c ∈ ds.head?, drop c = false) → ds.dropWhile drop = ds := by
    intro ds hds
    cases ds with
    | nil => rfl
    | cons d ds => rw [List.dropWhile_cons_of_neg (by simp [hds d rfl])]
  rw [trim, hkeep cs hfirst, hkeep cs.reverse (by rwa [List.head?_reverse]), List.reverse_reverse]

theorem trim_eq_self_of_forall {drop : Char → Bool} {cs : List Char}
    (h : ∀ c ∈ cs, drop c = false) : trim drop cs = cs :=
  trim_eq_self (fun c hc => h c (List.mem_of_mem_head? hc))
    fun c hc => h c (List.mem_of_getLast? hc)

/-- What begins and ends with characters that are kept is kept. -/
theorem infix_trim {drop : Char → Bool} {w cs : List Char} (hfirst : ∀ c ∈ w.head?, drop c = false)
    (hlast : ∀ c ∈ w.getLast?, drop c = false) (h : w <:+: cs) : w <:+: trim drop cs := by
  have hkeep : ∀ {v ds : List Char}, (∀ c ∈ v.head?, drop c = false) → v <:+: ds →
      v <:+: ds.dropWhile drop := by
    rintro v _ hv ⟨front, back, rfl⟩
    cases v with
    | nil => exact List.nil_infix
    | cons c v =>
      rw [List.append_assoc, List.dropWhile_append]
      split_ifs
      · rw [List.cons_append, List.dropWhile_cons_of_neg (by simp [hv c rfl])]
        exact List.infix_append' [] (c :: v) back
      · exact List.infix_append' _ _ _
  rw [trim, ← List.reverse_infix, List.reverse_reverse]
  refine hkeep (by rwa [List.head?_reverse]) ?_
  rw [List.reverse_infix]
  exact hkeep hfirst h

theorem isNumeralBlank_of_isBlank {c : Char} (h : isBlank c = false) :
    isNumeralBlank c = false := by
  simp [isNumeralBlank, h]

/-! ### All parts -/

theorem splitOn_intercalate_toList {sep : String} {c : Char} (hsep : sep.toList = [c])
    {texts : List String} (hne : texts ≠ []) (h : ∀ t ∈ texts, c ∉ t.toList) :
    (String.intercalate sep texts).toList.splitOn c = texts.map String.toList := by
  rw [String.toList_intercalate, hsep]
  refine List.splitOn_intercalate c ?_ (by simpa using hne)
  intro cs hcs
  obtain ⟨t, ht, rfl⟩ := List.mem_map.1 hcs
  exact h t ht

/-- What holds no separator stands in one part. -/
theorem exists_part_of_infix {sep : Char} {w cs : List Char} (hw : sep ∉ w) (h : w <:+: cs) :
    ∃ part ∈ cs.splitOn sep, w <:+: part := by
  obtain ⟨front, back, rfl⟩ := h
  induction front with
  | nil =>
    by_cases hback : sep ∈ back
    · obtain ⟨a, b, rfl, ha⟩ := List.eq_append_cons_of_mem hback
      have hnot : sep ∉ w ++ a := fun h => (List.mem_append.1 h).elim hw ha
      rw [List.nil_append, ← List.append_assoc, List.splitOn_append_cons_self_of_not_mem hnot]
      exact ⟨w ++ a, List.mem_cons_self, List.infix_append' [] w a⟩
    · have hnot : sep ∉ w ++ back := fun h => (List.mem_append.1 h).elim hw hback
      rw [List.nil_append, List.splitOn_eq_singleton hnot]
      exact ⟨w ++ back, List.mem_singleton_self _, List.infix_append' [] w back⟩
  | cons c front ih =>
    obtain ⟨part, hpart, hinfix⟩ := ih
    rw [List.cons_append, List.cons_append, List.splitOn_cons_eq_if_modifyHead]
    split_ifs
    · exact ⟨part, List.mem_cons_of_mem _ hpart, hinfix⟩
    · generalize List.splitOn sep (front ++ w ++ back) = parts at hpart
      cases parts with
      | nil => exact absurd hpart List.not_mem_nil
      | cons p parts =>
        rcases List.mem_cons.1 hpart with rfl | hpart
        · exact ⟨c :: part, List.mem_cons_self, hinfix.trans (List.suffix_cons c part).isInfix⟩
        · exact ⟨part, List.mem_cons_of_mem _ hpart, hinfix⟩

/-- Texts without blanks that are joined with blanks are the words of the text. -/
theorem words_intercalate {texts : List String}
    (h : ∀ t ∈ texts, t ≠ "" ∧ ∀ c ∈ t.toList, isBlank c = false) :
    words (String.intercalate " " texts).toList = texts.map String.toList := by
  have hkeep : ∀ t ∈ texts, decide (t.toList ≠ []) = true := by
    intro t ht
    simpa using (h t ht).1
  rw [String.toList_intercalate]
  unfold words
  induction texts with
  | nil => rfl
  | cons t texts ih =>
    obtain ⟨ht, htexts⟩ := List.forall_mem_cons.1 h
    obtain ⟨hkeept, hkeeps⟩ := List.forall_mem_cons.1 hkeep
    cases texts with
    | nil =>
      rw [List.map_cons, List.map_nil, List.intercalate_singleton,
        List.splitOnP_eq_singleton ht.2, List.filter_cons, if_pos hkeept, List.filter_nil]
    | cons u texts =>
      have htail := ih htexts hkeeps
      rw [List.map_cons, List.map_cons, List.intercalate_cons_cons, List.append_assoc]
      change List.filter _ (List.splitOnP isBlank (t.toList ++ ' ' :: _)) = _
      rw [List.splitOnP_append_cons_of_forall_mem ht.2 ' ' rfl, List.filter_cons, if_pos hkeept]
      exact congrArg _ htail

/-! ### Two parts -/

theorem cutFirst_append {sep : Char} {front : List Char} (h : sep ∉ front) (back : List Char) :
    cutFirst sep (front ++ sep :: back) = some (front, back) := by
  have hall : ∀ c ∈ front, decide (c ≠ sep) = true := by
    intro c hc
    simpa using (fun heq : c = sep => h (heq ▸ hc))
  unfold cutFirst
  rw [List.dropWhile_append_of_pos hall, List.dropWhile_cons_of_neg (by simp),
    List.takeWhile_append_of_pos hall, List.takeWhile_cons_of_neg (by simp), List.append_nil]

theorem cutFirst_of_not_mem {sep : Char} {cs : List Char} (h : sep ∉ cs) :
    cutFirst sep cs = none := by
  have hall : ∀ c ∈ cs, decide (c ≠ sep) = true := by
    intro c hc
    simpa using (fun heq : c = sep => h (heq ▸ hc))
  have hdrop : (cs ++ []).dropWhile (fun c => decide (c ≠ sep)) = [] :=
    List.dropWhile_append_of_pos hall
  rw [List.append_nil] at hdrop
  unfold cutFirst
  rw [hdrop]

theorem cutLast_append {sep : Char} (front : List Char) {back : List Char} (h : sep ∉ back) :
    cutLast sep (front ++ sep :: back) = some (front, back) := by
  have hreverse : (front ++ sep :: back).reverse = back.reverse ++ sep :: front.reverse := by simp
  rw [cutLast, hreverse, cutFirst_append (by simpa using h)]
  simp

theorem cutLast_of_not_mem {sep : Char} {cs : List Char} (h : sep ∉ cs) :
    cutLast sep cs = none := by
  rw [cutLast, cutFirst_of_not_mem (by simpa using h), Option.map_none]

end DotWriter
