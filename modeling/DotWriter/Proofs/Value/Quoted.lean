import DotWriter.Proofs.Document.Lexer
import DotWriter.Value
import Mathlib.Algebra.Group.Nat.Even
import Mathlib.Tactic.SplitIfs

/-!
# Where a quoted string is closed

In a document a backslash takes the next character with it, and the first quote that is not taken
closes a string.

* `closingQuote?` finds the quote that closes a string;
* `EvenRuns` : the texts in which every run of backslashes in front of a quote, and the one at the
  end, has even length;
* `Value.string_closes_iff` : **exactly these texts are written as strings that are closed by their
  last character**.
-/

namespace DotWriter

/-- How many characters stand in front of the first quote that no backslash takes with it. -/
def bodyLength? : List Char → Option Nat
  | [] => none
  | '\\' :: _ :: cs => (bodyLength? cs).map (· + 2)
  | c :: cs => if c = '"' then some 0 else (bodyLength? cs).map (· + 1)

/-- The position of the quote that closes the string that a text begins with. -/
def closingQuote? : List Char → Option Nat
  | '"' :: cs => (bodyLength? cs).map (· + 1)
  | _ => none

/-- The length of the run of backslashes that a text ends in. -/
def backslashesAtEnd (cs : List Char) : Nat := (cs.reverse.takeWhile (· == '\\')).length

/-- A text ends, or goes on with a quote. -/
def StopsOrQuotes (cs : List Char) : Prop := cs = [] ∨ cs.head? = some '"'

/-- Every maximal run of backslashes that stands directly in front of a quote or at the end has even
length. -/
def EvenRuns (cs : List Char) : Prop :=
  ∀ before after, cs = before ++ after → StopsOrQuotes after → Even (backslashesAtEnd before)

/-- Writes `new` for every `old`. -/
def replaceChar (old : Char) (new cs : List Char) : List Char :=
  cs.flatMap fun c => if c = old then new else [c]

/-! ### Escapes -/

/-- Quotes are escaped first, and line ends afterwards; neither escape holds a character of the
other. -/
theorem flatMap_quoteChar_eq (cs : List Char) :
    cs.flatMap quoteChar = replaceChar '\n' ['\\', 'n'] (replaceChar '"' ['\\', '"'] cs) := by
  rw [replaceChar, replaceChar, List.flatMap_assoc]
  congr 1
  funext c
  unfold quoteChar
  split_ifs with hquote hline
  · rfl
  · simp [hline]
  · simp [hline]

theorem newline_not_mem_quoted (s : String) : '\n' ∉ (quoted s).toList := by
  have hchar : ∀ c, '\n' ∉ quoteChar c := by
    intro c
    unfold quoteChar
    split_ifs with hquote hline
    · decide
    · decide
    · exact fun h => hline (List.mem_singleton.1 h).symm
  rw [quoted, String.toList_ofList, quotedChars]
  simp [hchar]

/-! ### Runs of backslashes -/

theorem backslashesAtEnd_concat (cs : List Char) (c : Char) :
    backslashesAtEnd (cs ++ [c]) = if c = '\\' then backslashesAtEnd cs + 1 else 0 := by
  rw [backslashesAtEnd, List.reverse_append, List.reverse_singleton, List.singleton_append,
    List.takeWhile_cons]
  by_cases h : c = '\\' <;> simp [h, backslashesAtEnd]

/-- The runs of `cs` in a text that begins with `front`. -/
def EvenRunsAfter (front cs : List Char) : Prop :=
  ∀ before after, cs = before ++ after → StopsOrQuotes after →
    Even (backslashesAtEnd (front ++ before))

theorem evenRunsAfter_nil {front : List Char} :
    EvenRunsAfter front [] ↔ Even (backslashesAtEnd front) := by
  constructor
  · intro h
    simpa using h [] [] rfl (.inl rfl)
  · intro h before after heq _
    obtain ⟨rfl, rfl⟩ := List.nil_eq_append_iff.1 heq
    simpa using h

theorem evenRunsAfter_cons {front cs : List Char} {c : Char} :
    EvenRunsAfter front (c :: cs) ↔
      (c = '"' → Even (backslashesAtEnd front)) ∧ EvenRunsAfter (front ++ [c]) cs := by
  constructor
  · intro h
    refine ⟨fun hc => ?_, fun before after heq hstop => ?_⟩
    · simpa using h [] (c :: cs) rfl (.inr (by rw [hc]; rfl))
    · simpa using h (c :: before) after (by rw [heq, List.cons_append]) hstop
  · rintro ⟨hquote, hrest⟩ before after heq hstop
    cases before with
    | nil =>
      have hc : c = '"' := by
        rw [List.nil_append] at heq
        subst heq
        simpa [StopsOrQuotes] using hstop
      simpa using hquote hc
    | cons d before =>
      obtain ⟨rfl, rfl⟩ := List.cons.inj heq
      simpa using hrest before after rfl hstop

/-! ### Bodies -/

/-- The quote after a text closes a string exactly if the text is the body of one. -/
theorem bodyLength?_concat_iff (body : List Char) :
    bodyLength? (body ++ ['"']) = some body.length ↔ isQuotedBody body = true := by
  fun_induction isQuotedBody body with
  | case1 => simp [bodyLength?]
  | case2 c cs ih => simp [bodyLength?, ih]
  | case3 c cs hne ih =>
    by_cases hslash : c = '\\'
    · subst hslash
      -- a lone backslash takes the closing quote
      cases cs with
      | nil => simp [bodyLength?]
      | cons d ds => exact absurd rfl (hne d ds rfl)
    · rw [List.cons_append, bodyLength?]
      · by_cases hquote : c = '"' <;> simp [hquote, hslash, ih]
      · rintro d ds rfl
        exact absurd rfl hslash

/-- What is left to read after `front`: a backslash that has taken nothing yet comes first. -/
theorem isQuotedBody_escape_iff (cs front : List Char) :
    isQuotedBody
        ((if Even (backslashesAtEnd front) then [] else ['\\']) ++ cs.flatMap quoteChar) = true ↔
      EvenRunsAfter front cs := by
  induction cs generalizing front with
  | nil =>
    rw [evenRunsAfter_nil]
    split_ifs with h <;> simp [h, isQuotedBody]
  | cons c cs ih =>
    rw [evenRunsAfter_cons, ← ih (front ++ [c]), backslashesAtEnd_concat]
    by_cases hquote : c = '"'
    · subst hquote
      by_cases h : Even (backslashesAtEnd front) <;> simp [h, quoteChar, isQuotedBody]
    by_cases hslash : c = '\\'
    · subst hslash
      by_cases h : Even (backslashesAtEnd front) <;>
        simp [h, quoteChar, isQuotedBody, Nat.even_add_one]
    by_cases hline : c = '\n'
    · subst hline
      by_cases h : Even (backslashesAtEnd front) <;> simp [h, quoteChar, isQuotedBody]
    · by_cases h : Even (backslashesAtEnd front) <;>
        simp [h, hquote, hslash, hline, quoteChar, isQuotedBody]

theorem isQuotedBody_flatMap_iff (cs : List Char) :
    isQuotedBody (cs.flatMap quoteChar) = true ↔ EvenRuns cs := by
  have hnil : Even (backslashesAtEnd []) := Even.zero
  have h := isQuotedBody_escape_iff cs []
  rwa [if_pos hnil] at h

theorem closingQuote?_quotedChars_iff (cs : List Char) :
    closingQuote? (quotedChars cs) = some ((quotedChars cs).length - 1) ↔ EvenRuns cs := by
  rw [← isQuotedBody_flatMap_iff, ← bodyLength?_concat_iff, quotedChars, closingQuote?]
  simp

/-- **A string is written without line ends, and it is closed by its last character exactly if every
run of backslashes in front of a quote or at the end of the text has even length.** -/
theorem Value.string_closes_iff (text : String) :
    ∃ written, (Value.string text).render = .ok written ∧
      (Value.escString text).render = .ok written ∧
      written.toList =
        '"' :: (replaceChar '\n' ['\\', 'n'] (replaceChar '"' ['\\', '"'] text.toList) ++ ['"']) ∧
      '\n' ∉ written.toList ∧
      (closingQuote? written.toList = some (written.toList.length - 1) ↔
        EvenRuns text.toList) := by
  refine ⟨quoted text, rfl, rfl, ?_, newline_not_mem_quoted text, ?_⟩
  · rw [quoted, String.toList_ofList, quotedChars, flatMap_quoteChar_eq]
  · rw [quoted, String.toList_ofList]
    exact closingQuote?_quotedChars_iff text.toList

end DotWriter
