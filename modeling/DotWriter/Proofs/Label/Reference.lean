import DotWriter.Label.Node
import Mathlib.Tactic.SplitIfs

/-!
# Reading text inside labels

The way back from `escapeHtml`: a character reference is read as the character that it stands for,
and every other character as itself.

* `decodeReferences` : reads the text between two tags, or the value of an attribute;
* `cleanText` : a text without its control characters, which are not written;
* `decodeReferences_escapeHtml` : **what was escaped is read back**, but for the control characters.
-/

namespace DotWriter

/-- The value of a hexadecimal digit of a character reference, in either case. -/
def referenceDigit? (c : Char) : Option Nat :=
  if '0' ≤ c ∧ c ≤ '9' then some (c.toNat - 48)
  else if 'A' ≤ c ∧ c ≤ 'F' then some (c.toNat - 55)
  else if 'a' ≤ c ∧ c ≤ 'f' then some (c.toNat - 87)
  else none

/-- The number that hexadecimal digits go on to, after the number `n`. -/
def hexNumber? (n : Nat) (cs : List Char) : Option Nat :=
  cs.foldlM (fun n c => (referenceDigit? c).map (16 * n + ·)) n

/-- The character that stands between the ampersand and the semicolon of a reference. -/
def referredChar? : List Char → Option Char
  | '#' :: 'x' :: c :: cs => do
    let n ← hexNumber? 0 (c :: cs)
    if n.isValidChar then some (Char.ofNat n) else none
  | _ => none

/-- Reads text with references.  The first argument is what has been read of a reference that is not
complete yet. -/
def decodeFrom : Option (List Char) → List Char → Option (List Char)
  | none, [] => some []
  | some _, [] => none
  | none, c :: cs => if c = '&' then decodeFrom (some []) cs else (c :: ·) <$> decodeFrom none cs
  | some ref, c :: cs =>
    if c = ';' then do return (← referredChar? ref) :: (← decodeFrom none cs)
    else decodeFrom (some (ref ++ [c])) cs

/-- Reads text with references. -/
def decodeReferences (cs : List Char) : Option (List Char) := decodeFrom none cs

/-- A text without control characters. -/
def cleanText (s : String) : String := String.ofList (s.toList.filter fun c => !isControl c)

/-! ### Digits -/

theorem referenceDigit?_digitChar :
    ∀ d < 16, referenceDigit? (Nat.digitChar d).toUpper = some d := by
  decide

theorem hexNumber?_append (n : Nat) (cs ds : List Char) :
    hexNumber? n (cs ++ ds) = (hexNumber? n cs).bind fun n => hexNumber? n ds := by
  simp only [hexNumber?, List.foldlM_append]
  rfl

theorem hexNumber?_zeros (k : Nat) : hexNumber? 0 (List.replicate k '0') = some 0 := by
  induction k with
  | zero => rfl
  | succ k ih => exact ih

theorem hexNumber?_toDigits (n : Nat) :
    hexNumber? 0 ((Nat.toDigits 16 n).map Char.toUpper) = some n := by
  induction n using Nat.strongRecOn with
  | _ n ih =>
    -- the last digit is read after those of the quotient
    rw [Nat.toDigits_eq_if (by decide)]
    split_ifs with hn
    · simp [hexNumber?, referenceDigit?_digitChar n hn]
    · have hlt : n / 16 < n := Nat.div_lt_self (by omega) (by decide)
      have hmod : n % 16 < 16 := Nat.mod_lt n (by decide)
      have hdiv : 16 * (n / 16) + n % 16 = n := Nat.div_add_mod n 16
      rw [List.map_append, hexNumber?_append, ih _ hlt]
      simp [hexNumber?, referenceDigit?_digitChar _ hmod, hdiv]

theorem hexNumber?_referenceDigits (n : Nat) : hexNumber? 0 (referenceDigits n) = some n := by
  rw [referenceDigits, hexNumber?_append, hexNumber?_zeros]
  exact hexNumber?_toDigits n

/-- Hexadecimal digits in upper case. -/
def upperHexDigits : List Char := "0123456789ABCDEF".toList

theorem mem_toDigits_upper {n : Nat} {c : Char} (h : c ∈ (Nat.toDigits 16 n).map Char.toUpper) :
    c ∈ upperHexDigits := by
  have hdigit : ∀ d < 16, (Nat.digitChar d).toUpper ∈ upperHexDigits := by decide
  induction n using Nat.strongRecOn with
  | _ n ih =>
    rw [Nat.toDigits_eq_if (by decide)] at h
    split_ifs at h with hn
    · rw [List.mem_singleton.1 h]
      exact hdigit n hn
    · rw [List.map_append] at h
      rcases List.mem_append.1 h with h | h
      · exact ih _ (Nat.div_lt_self (by omega) (by decide)) h
      · rw [List.mem_singleton.1 h]
        exact hdigit _ (Nat.mod_lt n (by decide))

theorem mem_referenceDigits {n : Nat} {c : Char} (h : c ∈ referenceDigits n) :
    c ∈ upperHexDigits := by
  rcases List.mem_append.1 h with h | h
  · rw [(List.mem_replicate.1 h).2]
    decide
  · exact mem_toDigits_upper h

/-! ### References -/

theorem decodeFrom_some_append {ref cs : List Char} (h : ';' ∉ cs) (rest : List Char) :
    decodeFrom (some ref) (cs ++ rest) = decodeFrom (some (ref ++ cs)) rest := by
  induction cs generalizing ref with
  | nil => simp
  | cons c cs ih =>
    have hc : c ≠ ';' := (List.ne_of_not_mem_cons h).symm
    rw [List.cons_append, decodeFrom, if_neg hc, ih (List.not_mem_of_not_mem_cons h),
      List.append_assoc]
    rfl

theorem referredChar?_digits (c : Char) :
    referredChar? ('#' :: 'x' :: referenceDigits c.toNat) = some c := by
  have hne : referenceDigits c.toNat ≠ [] := by
    simp [referenceDigits, Nat.toDigits_ne_nil]
  obtain ⟨d, ds, hds⟩ := List.exists_cons_of_ne_nil hne
  have hn := hexNumber?_referenceDigits c.toNat
  rw [hds] at hn ⊢
  have hvalid : c.toNat.isValidChar := c.valid
  simp [referredChar?, hn, hvalid]

/-- One character that was escaped is read back, unless it is dropped. -/
theorem decodeFrom_escapeHtmlChar (c : Char) (rest : List Char) :
    decodeFrom none (escapeHtmlChar c ++ rest) =
      ((if isControl c then [] else [c]) ++ ·) <$> decodeFrom none rest := by
  unfold escapeHtmlChar
  split_ifs with hcontrol hplain
  · simp
  · have hamp : c ≠ '&' := by
      rintro rfl
      exact absurd hplain (by decide)
    rw [List.singleton_append, decodeFrom, if_neg hamp]
    rfl
  · -- the reference ends at its first semicolon
    have hsemi : ';' ∉ '#' :: 'x' :: referenceDigits c.toNat := by
      intro h
      simp only [List.mem_cons] at h
      rcases h with h | h | h
      · exact absurd h (by decide)
      · exact absurd h (by decide)
      · exact absurd (mem_referenceDigits h) (by decide)
    have hsplit : '&' :: '#' :: 'x' :: (referenceDigits c.toNat ++ [';']) ++ rest =
        '&' :: (('#' :: 'x' :: referenceDigits c.toNat) ++ ';' :: rest) := by simp
    rw [hsplit, decodeFrom, if_pos rfl, decodeFrom_some_append hsemi, List.nil_append, decodeFrom,
      if_pos rfl, referredChar?_digits]
    cases decodeFrom none rest <;> rfl

/-- What was escaped is read back, whatever follows. -/
theorem decodeFrom_escape (cs rest : List Char) :
    decodeFrom none (cs.flatMap escapeHtmlChar ++ rest) =
      (cs.filter (fun c => !isControl c) ++ ·) <$> decodeFrom none rest := by
  induction cs with
  | nil => simp
  | cons c cs ih =>
    rw [List.flatMap_cons, List.append_assoc, decodeFrom_escapeHtmlChar, ih, List.filter_cons]
    cases isControl c <;> simp [Function.comp_def]

/-- **What was escaped is read back**, but for the control characters. -/
theorem decodeReferences_escapeHtml (s : String) :
    decodeReferences (escapeHtml s).toList = some (cleanText s).toList := by
  have := decodeFrom_escape s.toList []
  rw [List.append_nil] at this
  rw [escapeHtml, String.toList_ofList, decodeReferences, this]
  simp [decodeFrom, cleanText]

/-- What has been read in full does not change by what follows. -/
theorem decodeFrom_append {pending : Option (List Char)} {cs out : List Char}
    (h : decodeFrom pending cs = some out) (rest : List Char) :
    decodeFrom pending (cs ++ rest) = (out ++ ·) <$> decodeFrom none rest := by
  induction cs generalizing pending out with
  | nil =>
    cases pending with
    | none =>
      cases h
      simp
    | some ref => cases h
  | cons c cs ih =>
    cases pending with
    | none =>
      rw [decodeFrom] at h
      rw [List.cons_append, decodeFrom]
      split_ifs at h ⊢ with hc
      · exact ih h
      · obtain ⟨out', hout, rfl⟩ := Option.map_eq_some_iff.1 h
        rw [ih hout]
        simp [Function.comp_def]
    | some ref =>
      rw [decodeFrom] at h
      rw [List.cons_append, decodeFrom]
      split_ifs at h ⊢ with hc
      · obtain ⟨d, hd, h⟩ := Option.bind_eq_some_iff.1 h
        obtain ⟨out', hout, h⟩ := Option.bind_eq_some_iff.1 h
        cases h
        rw [ih hout, hd]
        cases decodeFrom none rest <;> rfl
      · exact ih h

/-- Text without references is read as it is. -/
theorem decodeReferences_of_not_mem {cs : List Char} (h : '&' ∉ cs) :
    decodeReferences cs = some cs := by
  induction cs with
  | nil => rfl
  | cons c cs ih =>
    have hc : c ≠ '&' := (List.ne_of_not_mem_cons h).symm
    have hrest : decodeFrom none cs = some cs := ih (List.not_mem_of_not_mem_cons h)
    rw [decodeReferences, decodeFrom, if_neg hc, hrest]
    rfl

end DotWriter
