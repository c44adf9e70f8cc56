import DotWriter.Proofs.Label.Depth
import DotWriter.Text.Blank
import DotWriter.Value.Identifier
import Mathlib.Data.List.TakeWhile

/-!
# Tokens of documents

A document names graphs, nodes and attributes, and writes the values of attributes, by tokens.

* `IsToken` : identifiers, numerals, quoted strings and bracketed markup;
* `Keyword` : the words that mean something else, in any letter case;
* `IsName` : a token that is no keyword.
-/

namespace DotWriter

/-- Whether a text is a numeral without a sign: digits, with a point in front of, between or after
them. -/
def isUnsigned (cs : List Char) : Bool :=
  match cs.dropWhile Char.isDigit with
  | [] => !cs.isEmpty
  | c :: ds => c == '.' && ds.all Char.isDigit && decide (1 < cs.length)

/-- Whether a text is a numeral. -/
def isNumeral : List Char → Bool
  | '-' :: cs => isUnsigned cs
  | cs => isUnsigned cs

/-- Whether a text may stand between double quotes: a quote has a backslash in front, which always
belongs to the next character. -/
def isQuotedBody : List Char → Bool
  | [] => true
  | '\\' :: _ :: cs => isQuotedBody cs
  | c :: cs => c != '"' && c != '\\' && isQuotedBody cs

/-- A text between double quotes that ends where its first quote is closed. -/
def IsQuoted (cs : List Char) : Prop :=
  ∃ body, cs = '"' :: (body ++ ['"']) ∧ isQuotedBody body = true

/-- The tokens of documents. -/
inductive IsToken (cs : List Char) : Prop
  | identifier (h : isIdentifier cs = true)
  | numeral (h : isNumeral cs = true)
  | quoted (h : IsQuoted cs)
  | markup (h : IsMarkup cs)

/-- The words that a document is made of. -/
inductive Keyword
  | strict | graph | digraph | subgraph | node | edge
deriving DecidableEq

namespace Keyword

/-- All keywords. -/
def all : List Keyword := [.strict, .graph, .digraph, .subgraph, .node, .edge]

/-- The text of a keyword. -/
def text : Keyword → String
  | strict => "strict"
  | graph => "graph"
  | digraph => "digraph"
  | subgraph => "subgraph"
  | node => "node"
  | edge => "edge"

/-- The keyword that a word is, in any letter case. -/
def ofWord? (cs : List Char) : Option Keyword :=
  all.find? fun k => k.text.toList == cs.map Char.toLower

theorem ofWord?_text (k : Keyword) : ofWord? k.text.toList = some k := by
  cases k <;> decide

theorem isIdentifier_text (k : Keyword) : isIdentifier k.text.toList = true := by
  cases k <;> decide

/-- No word with any other first letter is a keyword. -/
theorem ofWord?_eq_none {c : Char} {cs : List Char} (h : c.toLower ∉ "sgdne".toList) :
    ofWord? (c :: cs) = none := by
  rw [ofWord?, List.find?_eq_none]
  intro k _ heq
  have hk : k.text.toList = c.toLower :: cs.map Char.toLower := beq_iff_eq.1 heq
  apply h
  cases k <;> rw [← (List.cons.inj hk).1] <;> decide

end Keyword

/-- A token that is no keyword. -/
structure IsName (s : String) : Prop where
  token : IsToken s.toList
  not_keyword : Keyword.ofWord? s.toList = none

/-! ### Bare tokens -/

/-- The characters that tokens without delimiters are written with, apart from a sign in front. -/
def isBareChar (c : Char) : Bool := isIdRest c || c == '.'

theorem isIdRest_of_isIdStart {c : Char} (h : isIdStart c = true) : isIdRest c = true := by
  unfold isIdStart at h
  unfold isIdRest
  rcases Bool.or_eq_true _ _ ▸ h with h | h <;> simp [h]

theorem isIdentifier_append {cs ds : List Char} (hc : isIdentifier cs = true)
    (hd : isIdentifier ds = true) : isIdentifier (cs ++ ds) = true := by
  have hrest : ∀ c ∈ ds, isIdRest c = true := by
    cases ds with
    | nil => cases hd
    | cons d ds =>
      rw [isIdentifier, Bool.and_eq_true, List.all_eq_true] at hd
      exact List.forall_mem_cons.2 ⟨isIdRest_of_isIdStart hd.1, hd.2⟩
  cases cs with
  | nil => cases hc
  | cons c cs =>
    rw [isIdentifier, Bool.and_eq_true, List.all_eq_true] at hc
    rw [List.cons_append, isIdentifier, Bool.and_eq_true, List.all_eq_true]
    refine ⟨hc.1, fun e he => ?_⟩
    rcases List.mem_append.1 he with he | he
    · exact hc.2 e he
    · exact hrest e he

theorem isBareChar_of_isIdentifier {cs : List Char} (h : isIdentifier cs = true) :
    cs ≠ [] ∧ ∀ c ∈ cs, isBareChar c = true := by
  cases cs with
  | nil => cases h
  | cons c cs =>
    have h' : isIdStart c = true ∧ cs.all isIdRest = true := by
      simpa [isIdentifier] using h
    refine ⟨List.cons_ne_nil c cs, List.forall_mem_cons.2 ⟨?_, fun d hd => ?_⟩⟩
    · simp [isBareChar, isIdRest_of_isIdStart h'.1]
    · simp [isBareChar, List.all_eq_true.1 h'.2 d hd]

theorem isBareChar_of_isDigit {c : Char} (h : c.isDigit = true) : isBareChar c = true := by
  have h' : '0' ≤ c ∧ c ≤ '9' := by
    simpa [Char.isDigit, Char.le_def] using h
  simp [isBareChar, isIdRest, h']

theorem isBareChar_of_isUnsigned {cs : List Char} (h : isUnsigned cs = true) :
    cs ≠ [] ∧ ∀ c ∈ cs, isBareChar c = true := by
  unfold isUnsigned at h
  -- the digits in front, and the rest, which is empty or a point with digits
  have hsplit := List.takeWhile_append_dropWhile (p := Char.isDigit) (l := cs)
  have hdigits : ∀ c ∈ cs.takeWhile Char.isDigit, isBareChar c = true := fun c hc =>
    isBareChar_of_isDigit (List.mem_takeWhile_imp hc)
  split at h
  · rename_i hnil
    rw [hnil, List.append_nil] at hsplit
    refine ⟨by simpa using h, fun c hc => hdigits c (hsplit.symm ▸ hc)⟩
  · rename_i c ds hcons
    rw [hcons] at hsplit
    simp only [Bool.and_eq_true, beq_iff_eq, decide_eq_true_eq] at h
    obtain ⟨⟨rfl, hds⟩, hlen⟩ := h
    refine ⟨by rintro rfl; simp at hlen, fun c hc => ?_⟩
    rw [← hsplit] at hc
    rcases List.mem_append.1 hc with hc | hc
    · exact hdigits c hc
    · rcases List.mem_cons.1 hc with rfl | hc
      · rfl
      · exact isBareChar_of_isDigit (List.all_eq_true.1 hds c hc)

/-- Where the characters of bare tokens are found. -/
theorem toNat_of_isBareChar {c : Char} (h : isBareChar c = true) :
    (46 ≤ c.toNat ∧ c.toNat ≤ 122) ∨ (0xC0 ≤ c.toNat ∧ c.toNat ≤ 0xFF) := by
  have hle : ∀ d e : Char, d ≤ e ↔ d.toNat ≤ e.toNat := fun _ _ => Iff.rfl
  unfold isBareChar isIdRest isLatinLetter at h
  simp only [Bool.or_eq_true, Bool.and_eq_true, decide_eq_true_eq, beq_iff_eq, hle,
    Char.reduceToNat] at h
  rcases h with ((h | h) | rfl) | rfl
  · omega
  · omega
  · exact .inl (by decide)
  · exact .inl (by decide)

theorem not_isBlank_of_isBareChar {c : Char} (h : isBareChar c = true) : isBlank c = false := by
  have hcode := toNat_of_isBareChar h
  unfold isBlank
  simp only [Bool.or_eq_false_iff, Bool.and_eq_false_iff, decide_eq_false_iff_not,
    beq_eq_false_iff_ne, ne_eq]
  omega

/-! ### Delimited tokens -/

theorem isQuotedBody_append {cs ds : List Char} (h : ∀ c ∈ cs, c ≠ '"' ∧ c ≠ '\\') :
    isQuotedBody (cs ++ ds) = isQuotedBody ds := by
  induction cs with
  | nil => rfl
  | cons c cs ih =>
    obtain ⟨⟨hquote, hslash⟩, hcs⟩ := List.forall_mem_cons.1 h
    rw [List.cons_append, isQuotedBody]
    · simp [hquote, hslash, ih hcs]
    · rintro d es rfl
      exact absurd rfl hslash

namespace IsToken

variable {c : Char} {cs : List Char}

/-- A token that begins with a quote is a quoted string. -/
theorem isQuoted (h : IsToken ('"' :: cs)) : IsQuoted ('"' :: cs) := by
  cases h with
  | identifier h => cases h
  | numeral h => cases h
  | quoted h => exact h
  | markup h => cases h.opens

/-- No token begins with a blank. -/
theorem exists_first (h : IsToken cs) : ∃ c rest, cs = c :: rest ∧ isBlank c = false := by
  have hbare : cs ≠ [] ∧ (∀ c ∈ cs, isBareChar c = true) →
      ∃ c rest, cs = c :: rest ∧ isBlank c = false := by
    rintro ⟨hne, hall⟩
    obtain ⟨c, rest, rfl⟩ := List.exists_cons_of_ne_nil hne
    exact ⟨c, rest, rfl, not_isBlank_of_isBareChar (hall c List.mem_cons_self)⟩
  cases h with
  | identifier h => exact hbare (isBareChar_of_isIdentifier h)
  | numeral h =>
    unfold isNumeral at h
    split at h
    · exact ⟨'-', _, rfl, rfl⟩
    · exact hbare (isBareChar_of_isUnsigned h)
  | quoted h =>
    obtain ⟨body, rfl, -⟩ := h
    exact ⟨'"', _, rfl, rfl⟩
  | markup h =>
    obtain ⟨rest, rfl⟩ := List.head?_eq_some_iff.1 h.opens
    exact ⟨'<', rest, rfl, rfl⟩

/-- No token ends in a blank. -/
theorem exists_last (h : IsToken cs) : ∃ front c, cs = front ++ [c] ∧ isBlank c = false := by
  have hbare : ∀ ds : List Char, ds ≠ [] ∧ (∀ c ∈ ds, isBareChar c = true) →
      ∃ front c, ds = front ++ [c] ∧ isBlank c = false := by
    rintro ds ⟨hne, hall⟩
    exact ⟨ds.dropLast, ds.getLast hne, (List.dropLast_append_getLast hne).symm,
      not_isBlank_of_isBareChar (hall _ (List.getLast_mem hne))⟩
  cases h with
  | identifier h => exact hbare cs (isBareChar_of_isIdentifier h)
  | numeral h =>
    unfold isNumeral at h
    split at h
    · rename_i ds
      obtain ⟨front, c, rfl, hc⟩ := hbare ds (isBareChar_of_isUnsigned h)
      exact ⟨'-' :: front, c, rfl, hc⟩
    · exact hbare cs (isBareChar_of_isUnsigned h)
  | quoted h =>
    obtain ⟨body, rfl, -⟩ := h
    exact ⟨'"' :: body, '"', rfl, rfl⟩
  | markup h =>
    obtain ⟨front, rfl, -⟩ := h.exists_close
    exact ⟨front, '>', rfl, rfl⟩

end IsToken

end DotWriter
