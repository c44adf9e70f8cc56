import DotWriter.Proofs.Text.Split
import DotWriter.Text.Numeral
import Mathlib.Data.List.Induction
import Mathlib.Tactic.SplitIfs

/-!
# What is read as a numeral

* `readInteger?_toString` : **an integer is read back from its text**;
* `readDouble?_decimal` : digits with a point among them are read as a decimal number;
* `readInteger?_eq_none`, `readDouble?_eq_none` : a text with a character that does not occur in
  numerals is not read.
-/

namespace DotWriter

/-! ### Digits -/

theorem ofDigits_concat (ds : List Nat) (d : Nat) :
    ofDigits 10 (ds ++ [d]) = ofDigits 10 ds * 10 + d := by
  simp [ofDigits, List.foldl_append]

/-- The digits of a number stand for it. -/
theorem exists_toDigits (n : Nat) : ∃ d ds, Nat.toDigits 10 n = (d :: ds).map Nat.digitChar ∧
    (∀ e ∈ d :: ds, e < 10) ∧ ofDigits 10 (d :: ds) = n := by
  induction n using Nat.strongRecOn with
  | _ n ih =>
    rw [Nat.toDigits_eq_if (by decide)]
    split_ifs with hn
    · exact ⟨n, [], rfl, by simpa using hn, by simp [ofDigits]⟩
    · obtain ⟨d, ds, hchars, hlt, hvalue⟩ := ih (n / 10) (Nat.div_lt_self (by omega) (by decide))
      refine ⟨d, ds ++ [n % 10], ?_, ?_, ?_⟩
      · rw [hchars]
        simp
      · intro e he
        rw [← List.cons_append] at he
        rcases List.mem_append.1 he with he | he
        · exact hlt e he
        · rw [List.mem_singleton.1 he]
          exact Nat.mod_lt n (by decide)
      · rw [← List.cons_append, ofDigits_concat, hvalue]
        omega

/-- What a digit character is. -/
structure IsDigitChar (c : Char) (d : Nat) : Prop where
  value : digitValue? c = some d
  ne_mark : c ≠ '_' ∧ c ≠ '-' ∧ c ≠ '+' ∧ c ≠ '#'
  not_blank : isBlank c = false
  ne_letter : c.toLower ≠ 'i' ∧ c.toLower ≠ 'n'

theorem isDigitChar_digitChar {d : Nat} (h : d < 10) : IsDigitChar (Nat.digitChar d) d := by
  have hall : ∀ d < 10, digitValue? (Nat.digitChar d) = some d ∧
      (Nat.digitChar d ≠ '_' ∧ Nat.digitChar d ≠ '-' ∧ Nat.digitChar d ≠ '+' ∧
        Nat.digitChar d ≠ '#') ∧ isBlank (Nat.digitChar d) = false ∧
      ((Nat.digitChar d).toLower ≠ 'i' ∧ (Nat.digitChar d).toLower ≠ 'n') := by decide
  obtain ⟨hvalue, hmark, hblank, hletter⟩ := hall d h
  exact ⟨hvalue, hmark, hblank, hletter⟩

theorem digitTail_cons {c : Char} {d : Nat} (hc : IsDigitChar c d) (cs : List Char) :
    digitTail digitValue? (c :: cs) =
      (d :: (digitTail digitValue? cs).1, (digitTail digitValue? cs).2) := by
  rw [digitTail]
  · rw [hc.value]
  · rintro _ _ h
    exact absurd h hc.ne_mark.1

/-- Digits are read up to the first character that is none. -/
theorem digitTail_digits {ds : List Nat} (hds : ∀ d ∈ ds, d < 10) {r : List Char}
    (hrest : digitTail digitValue? r = ([], r)) :
    digitTail digitValue? (ds.map Nat.digitChar ++ r) = (ds, r) := by
  induction ds with
  | nil => exact hrest
  | cons d ds ih =>
    obtain ⟨hd, hds⟩ := List.forall_mem_cons.1 hds
    rw [List.map_cons, List.cons_append, digitTail_cons (isDigitChar_digitChar hd), ih hds]

theorem digitRun_digits {d : Nat} {ds : List Nat} (hds : ∀ e ∈ d :: ds, e < 10) {r : List Char}
    (hrest : digitTail digitValue? r = ([], r)) :
    digitRun digitValue? ((d :: ds).map Nat.digitChar ++ r) = (d :: ds, r) := by
  obtain ⟨hd, htail⟩ := List.forall_mem_cons.1 hds
  rw [List.map_cons, List.cons_append, digitRun, (isDigitChar_digitChar hd).value]
  simp only [digitTail_digits htail hrest]

/-! ### Numerals that are read -/

/-- The minus sign of a negative number. -/
def signChars (negative : Bool) : List Char := if negative then ['-'] else []

theorem readSign_digits (negative : Bool) {d : Nat} (hd : d < 10) (cs : List Char) :
    readSign (signChars negative ++ Nat.digitChar d :: cs) = (negative, Nat.digitChar d :: cs) := by
  cases negative with
  | true => rfl
  | false =>
    have hmark := (isDigitChar_digitChar hd).ne_mark
    unfold readSign signChars
    split
    · rename_i heq
      exact absurd (List.cons.inj heq).1 hmark.2.1
    · rename_i heq
      exact absurd (List.cons.inj heq).1 hmark.2.2.1
    · rfl

theorem toString_toList (n : Int) :
    (toString n).toList = signChars (decide (n < 0)) ++ Nat.toDigits 10 n.natAbs := by
  rw [Int.toString_eq_repr, Int.repr_eq_if]
  by_cases hn : 0 ≤ n
  · have hnot : ¬ n < 0 := by omega
    have habs : n.toNat = n.natAbs := by omega
    rw [if_pos hn, Nat.toList_repr, habs]
    simp [signChars, hnot]
  · have hneg : n < 0 := by omega
    have habs : (-n).toNat = n.natAbs := by omega
    rw [if_neg hn, String.toList_append, Nat.toList_repr, habs]
    simp [signChars, hneg]

/-- A signed run of digits holds no blanks. -/
theorem signed_not_blank (negative : Bool) {ds : List Nat} (hds : ∀ d ∈ ds, d < 10)
    {r : List Char} (hrest : ∀ c ∈ r, isBlank c = false) :
    ∀ c ∈ signChars negative ++ ds.map Nat.digitChar ++ r, isBlank c = false := by
  intro c hc
  rcases List.mem_append.1 hc with hc | hc
  · rcases List.mem_append.1 hc with hc | hc
    · unfold signChars at hc
      split_ifs at hc
      · rw [List.mem_singleton.1 hc]
        rfl
      · exact absurd hc List.not_mem_nil
    · obtain ⟨d, hd, rfl⟩ := List.mem_map.1 hc
      exact (isDigitChar_digitChar (hds d hd)).not_blank
  · exact hrest c hc

/-- **An integer is read back from its text.** -/
theorem readInteger?_toString (n : Int) : readInteger? (toString n).toList = some n := by
  obtain ⟨d, ds, hchars, hds, hvalue⟩ := exists_toDigits n.natAbs
  have hblank := signed_not_blank (decide (n < 0)) hds (r := []) (by simp)
  rw [List.append_nil] at hblank
  have hrun := digitRun_digits hds (r := []) rfl
  rw [List.append_nil] at hrun
  rw [readInteger?, readWhole?, toString_toList, hchars,
    trim_eq_self_of_forall fun c hc => isNumeralBlank_of_isBlank (hblank c hc), List.map_cons,
    readSign_digits _ (hds d List.mem_cons_self)]
  simp only [← List.map_cons, hrun, hvalue]
  by_cases hn : n < 0
  · simp only [hn, decide_true, if_true, Option.some.injEq]
    omega
  · simp only [hn, decide_false, Bool.false_eq_true, if_false, Option.some.injEq]
    omega

/-- Digits with a point among them are read as a decimal number. -/
theorem readDouble?_decimal (negative : Bool) {d : Nat} {ds fs : List Nat}
    (hds : ∀ e ∈ d :: ds, e < 10) (hfs : ∀ e ∈ fs, e < 10) :
    readDouble? (signChars negative ++ (d :: ds).map Nat.digitChar ++
        '.' :: fs.map Nat.digitChar) =
      some (scaled negative (ofDigits 10 (d :: ds ++ fs)) (0 - fs.length)) := by
  have hblank := signed_not_blank negative hds (r := '.' :: fs.map Nat.digitChar) (by
    refine List.forall_mem_cons.2 ⟨rfl, fun c hc => ?_⟩
    obtain ⟨e, he, rfl⟩ := List.mem_map.1 hc
    exact (isDigitChar_digitChar (hfs e he)).not_blank)
  have hd := isDigitChar_digitChar (hds d List.mem_cons_self)
  have hrun := digitRun_digits hds (r := '.' :: fs.map Nat.digitChar) rfl
  have hfraction : digitRun digitValue? (fs.map Nat.digitChar) = (fs, []) := by
    cases fs with
    | nil => rfl
    | cons f fs => simpa using digitRun_digits hfs (r := []) rfl
  rw [readDouble?, trim_eq_self_of_forall fun c hc => isNumeralBlank_of_isBlank (hblank c hc),
    List.append_assoc, List.map_cons, List.cons_append,
    readSign_digits _ (hds d List.mem_cons_self)]
  -- a text that begins with a digit is no name of a number
  have hname : ∀ (c : Char) (cs ds : List Char), c ≠ (Nat.digitChar d).toLower →
      List.map Char.toLower (Nat.digitChar d :: cs) ≠ c :: ds := by
    intro c cs ds hne heq
    exact hne (List.cons.inj heq).1.symm
  simp only [hname _ _ _ hd.ne_letter.1.symm, hname _ _ _ hd.ne_letter.2.symm, or_self, if_false]
  rw [← List.cons_append, ← List.map_cons, readDecimal?]
  simp only [hrun, hfraction]
  simp [readExponent?]

/-! ### Texts that are no numerals -/

/-- Digits, the marks of numerals and the letters of exponents. -/
def isNumeralChar (c : Char) : Bool := (digitValue? c).isSome || "_.eE+-".toList.contains c

/-- A character that occurs in no numeral and in no name of a number. -/
def isForeign (c : Char) : Bool := !isNumeralChar c && !"infatyn".toList.contains c.toLower

section rest

variable {value? : Char → Option Nat} {c : Char}

/-- A character that is neither a digit nor an underscore is not taken. -/
theorem mem_digitTail_rest (hc : value? c = none) (hmark : c ≠ '_') {cs : List Char}
    (h : c ∈ cs) : c ∈ (digitTail value? cs).2 := by
  fun_induction digitTail value? cs with
  | case1 d cs e he ds rest heq ih =>
    rw [heq] at ih
    rcases List.mem_cons.1 h with rfl | h
    · exact absurd rfl hmark
    · rcases List.mem_cons.1 h with rfl | h
      · rw [he] at hc; cases hc
      · exact ih h
  | case2 => exact h
  | case3 d cs hne e he ds rest heq ih =>
    rw [heq] at ih
    rcases List.mem_cons.1 h with rfl | h
    · rw [he] at hc; cases hc
    · exact ih h
  | case4 => exact h
  | case5 => exact h

theorem mem_digitRun_rest (hc : value? c = none) (hmark : c ≠ '_') {cs : List Char}
    (h : c ∈ cs) : c ∈ (digitRun value? cs).2 := by
  cases cs with
  | nil => exact absurd h List.not_mem_nil
  | cons d cs =>
    rw [digitRun]
    cases hd : value? d with
    | none => exact h
    | some e =>
      rcases List.mem_cons.1 h with rfl | h
      · rw [hd] at hc; cases hc
      · exact mem_digitTail_rest hc hmark h

theorem mem_readSign {cs : List Char} (hminus : c ≠ '-') (hplus : c ≠ '+') (h : c ∈ cs) :
    c ∈ (readSign cs).2 := by
  unfold readSign
  split
  · exact (List.mem_cons.1 h).resolve_left hminus
  · exact (List.mem_cons.1 h).resolve_left hplus
  · exact h

end rest

variable {c : Char} {cs : List Char}

theorem isNumeralChar_eq_false (hc : isNumeralChar c = false) :
    digitValue? c = none ∧ c ≠ '_' ∧ c ≠ '.' ∧ c ≠ 'e' ∧ c ≠ 'E' ∧ c ≠ '+' ∧ c ≠ '-' := by
  simpa [isNumeralChar] using hc

/-- A text with a character that is no part of an integer is not read as one. -/
theorem readInteger?_eq_none (hc : digitValue? c = none) (hmark : c ≠ '_' ∧ c ≠ '+' ∧ c ≠ '-')
    (h : c ∈ trim isNumeralBlank cs) : readInteger? cs = none := by
  obtain ⟨hunder, hplus, hminus⟩ := hmark
  have hrest := mem_digitRun_rest hc hunder (mem_readSign hminus hplus h)
  rw [readInteger?, readWhole?]
  generalize readSign (trim isNumeralBlank cs) = signed at hrest ⊢
  obtain ⟨negative, body⟩ := signed
  dsimp only at hrest ⊢
  -- what is left over is no integer
  generalize digitRun digitValue? body = run at hrest ⊢
  rcases run with ⟨_ | ⟨d, ds⟩, _ | ⟨r, rs⟩⟩
  · rfl
  · rfl
  · exact absurd hrest List.not_mem_nil
  · rfl

theorem readExponent?_eq_none (hc : isNumeralChar c = false) (h : c ∈ cs) :
    readExponent? cs = none := by
  obtain ⟨hdigit, hunder, -, he, hE, hplus, hminus⟩ := isNumeralChar_eq_false hc
  cases cs with
  | nil => exact absurd h List.not_mem_nil
  | cons d cs =>
    rw [readExponent?]
    split_ifs with hd
    · have hmem : c ∈ cs := (List.mem_cons.1 h).resolve_left (by rintro rfl; exact hd.elim he hE)
      have hrest := mem_digitRun_rest hdigit hunder (mem_readSign hminus hplus hmem)
      generalize readSign cs = signed at hrest ⊢
      obtain ⟨negative, body⟩ := signed
      dsimp only at hrest ⊢
      generalize digitRun digitValue? body = run at hrest ⊢
      rcases run with ⟨_ | ⟨d, ds⟩, _ | ⟨r, rs⟩⟩
      · rfl
      · rfl
      · exact absurd hrest List.not_mem_nil
      · rfl
    · rfl

theorem readDecimal?_eq_none (hc : isNumeralChar c = false) (h : c ∈ cs) (negative : Bool) :
    readDecimal? negative cs = none := by
  obtain ⟨hdigit, hunder, hpoint, -⟩ := isNumeralChar_eq_false hc
  have hrest := mem_digitRun_rest hdigit hunder h
  rw [readDecimal?]
  generalize digitRun digitValue? cs = run at hrest ⊢
  obtain ⟨whole, rest⟩ := run
  dsimp only at hrest ⊢
  -- the character stands behind the fraction, if there is one
  split
  · have htail := mem_digitRun_rest hdigit hunder ((List.mem_cons.1 hrest).resolve_left hpoint)
    split_ifs
    · rfl
    · rw [readExponent?_eq_none hc htail, Option.map_none]
  · split_ifs
    · rfl
    · rw [readExponent?_eq_none hc hrest, Option.map_none]

/-- A text with a foreign character in it is not read as a number. -/
theorem readDouble?_eq_none (hc : isForeign c = true) (h : c ∈ trim isNumeralBlank cs) :
    readDouble? cs = none := by
  obtain ⟨hnumeral, hletter⟩ : isNumeralChar c = false ∧ c.toLower ∉ "infatyn".toList := by
    simpa [isForeign] using hc
  obtain ⟨-, -, -, -, -, hplus, hminus⟩ := isNumeralChar_eq_false hnumeral
  have hbody := mem_readSign hminus hplus h
  rw [readDouble?]
  generalize readSign (trim isNumeralBlank cs) = signed at hbody ⊢
  obtain ⟨negative, body⟩ := signed
  dsimp only at hbody ⊢
  -- the names of numbers have no such letter
  have hname : ∀ name : List Char, name ⊆ "infatyn".toList → body.map Char.toLower ≠ name := by
    rintro name hname rfl
    exact hletter (hname (List.mem_map_of_mem hbody))
  rw [if_neg, if_neg (hname _ (by decide)), readDecimal?_eq_none hnumeral hbody]
  exact not_or.2 ⟨hname _ (by decide), hname _ (by decide)⟩

end DotWriter
