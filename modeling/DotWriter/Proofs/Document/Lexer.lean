import DotWriter.Proofs.Document.Token
import DotWriter.Proofs.Machine
import Mathlib.Tactic.SplitIfs

/-!
# Reading the tokens of a document

`Lexer.step` takes one character of a document at a time.  Quoted strings and markup may hold
braces, brackets and operators, and are kept as they are written.

* `Lexer.reads_token` : **a token is read as itself**, if a delimiter follows;
* `Lexer.reads_keyword` : so is a keyword.
-/

namespace DotWriter

/-- The parts that a document is made of. -/
inductive Lexeme
  | keyword (k : Keyword)
  /-- A token, as it is written. -/
  | token (text : String)
  /-- An operator between the ends of an edge. -/
  | operator (directed : Bool)
  | openBrace | closeBrace | openBracket | closeBracket | equals | semicolon
deriving DecidableEq

/-- What the lexer is in the middle of. -/
inductive LexMode
  | between
  /-- A token without delimiters. -/
  | bare (cs : List Char)
  /-- A numeral or an operator, of which the first dash has been read. -/
  | dash
  /-- A quoted string; the next character of it may be `escaped`. -/
  | quoted (escaped : Bool) (cs : List Char)
  /-- Markup with open brackets. -/
  | markup (depth : Nat) (cs : List Char)

/-- What the lexer has read. -/
structure Lexer where
  read : List Lexeme
  mode : LexMode

namespace Lexer

/-- The punctuation marks. -/
def marks : List (Char × Lexeme) := [
  ('\x7b', .openBrace), ('\x7d', .closeBrace), ('[', .openBracket), (']', .closeBracket),
  ('=', .equals), (';', .semicolon)]

/-- Whether a character separates tokens and is nothing else. -/
def isSeparator (c : Char) : Bool := c == ' ' || c == '\n' || c == '\t' || c == '\r'

/-- The lexeme of a token without delimiters. -/
def bareLexeme? (cs : List Char) : Option Lexeme :=
  if isIdentifier cs then
    match Keyword.ofWord? cs with
    | some k => some (.keyword k)
    | none => some (.token (String.ofList cs))
  else if isNumeral cs then some (.token (String.ofList cs))
  else none

/-- Reads the first character of a lexeme. -/
def begin (read : List Lexeme) (c : Char) : Option Lexer :=
  if isSeparator c then some ⟨read, .between⟩
  else if c = '"' then some ⟨read, .quoted false [c]⟩
  else if c = '<' then some ⟨read, .markup 1 [c]⟩
  else if c = '-' then some ⟨read, .dash⟩
  else if isBareChar c then some ⟨read, .bare [c]⟩
  else (marks.lookup c).map fun mark => ⟨read ++ [mark], .between⟩

/-- Reads one character. -/
def step (l : Lexer) (c : Char) : Option Lexer :=
  match l.mode with
  | .between => begin l.read c
  | .bare cs =>
    if isBareChar c then some ⟨l.read, .bare (cs ++ [c])⟩
    else do begin (l.read ++ [← bareLexeme? cs]) c
  | .dash =>
    if c = '>' then some ⟨l.read ++ [.operator true], .between⟩
    else if c = '-' then some ⟨l.read ++ [.operator false], .between⟩
    else if isBareChar c then some ⟨l.read, .bare ['-', c]⟩
    else none
  | .quoted escaped cs =>
    if escaped then some ⟨l.read, .quoted false (cs ++ [c])⟩
    else if c = '"' then some ⟨l.read ++ [.token (String.ofList (cs ++ [c]))], .between⟩
    else some ⟨l.read, .quoted (c == '\\') (cs ++ [c])⟩
  | .markup depth cs =>
    if c = '<' then some ⟨l.read, .markup (depth + 1) (cs ++ [c])⟩
    else if c = '>' then
      if depth ≤ 1 then some ⟨l.read ++ [.token (String.ofList (cs ++ [c]))], .between⟩
      else some ⟨l.read, .markup (depth - 1) (cs ++ [c])⟩
    else some ⟨l.read, .markup depth (cs ++ [c])⟩

/-- What has been read, if nothing is missing. -/
def finish? (l : Lexer) : Option (List Lexeme) :=
  match l.mode with
  | .between => some l.read
  | .bare cs => do return l.read ++ [← bareLexeme? cs]
  | _ => none

/-! ### Tokens -/

theorem reads_bare (read : List Lexeme) {cs ds : List Char} (h : ∀ c ∈ ds, isBareChar c = true) :
    Reads step ⟨read, .bare cs⟩ ds ⟨read, .bare (cs ++ ds)⟩ := by
  refine Reads.collect (fun acc => (⟨read, .bare acc⟩ : Lexer)) (fun acc c hc => ?_) cs
  simp [step, h c hc]

/-- The characters that tokens without delimiters are written with begin such a token. -/
theorem begin_bare (read : List Lexeme) {c : Char} (h : isBareChar c = true) :
    begin read c = some ⟨read, .bare [c]⟩ := by
  have hne : ∀ d, isBareChar d = false → c ≠ d := by
    rintro d hd rfl
    rw [h] at hd
    cases hd
  have hsep : isSeparator c = false := by
    simp [isSeparator, hne ' ' rfl, hne '\n' rfl, hne '\t' rfl, hne '\r' rfl]
  simp [begin, hsep, hne '"' rfl, hne '<' rfl, hne '-' rfl, h]

theorem reads_quotedBody (read : List Lexeme) {body : List Char} (h : isQuotedBody body = true)
    (cs : List Char) :
    Reads step ⟨read, .quoted false cs⟩ body ⟨read, .quoted false (cs ++ body)⟩ := by
  fun_induction isQuotedBody body generalizing cs with
  | case1 => simpa using Reads.nil
  | case2 c rest ih =>
    -- the backslash and the character after it are read together
    have hslash : step ⟨read, .quoted false cs⟩ '\\' =
        some ⟨read, .quoted true (cs ++ ['\\'])⟩ := by
      simp [step]
    have hnext : step ⟨read, .quoted true (cs ++ ['\\'])⟩ c =
        some ⟨read, .quoted false (cs ++ ['\\'] ++ [c])⟩ := by
      simp [step]
    have := ih h (cs ++ ['\\'] ++ [c])
    exact .cons hslash (.cons hnext (by simpa using this))
  | case3 c rest hne ih =>
    simp only [Bool.and_eq_true, bne_iff_ne] at h
    obtain ⟨⟨hquote, hslash⟩, hrest⟩ := h
    have hstep : step ⟨read, .quoted false cs⟩ c = some ⟨read, .quoted false (cs ++ [c])⟩ := by
      simp [step, hquote, hslash]
    exact .cons hstep (by simpa using ih hrest (cs ++ [c]))

theorem reads_quoted (read : List Lexeme) {cs : List Char} (h : IsQuoted cs) :
    Reads step ⟨read, .between⟩ cs ⟨read ++ [.token (String.ofList cs)], .between⟩ := by
  obtain ⟨body, rfl, hbody⟩ := h
  refine .cons rfl ((reads_quotedBody read hbody ['"']).append (.one ?_))
  simp [step]

/-- Inside markup, one character more. -/
theorem step_markup (read : List Lexeme) {cs : List Char} {c : Char} (h : 1 ≤ angleDepth cs)
    (hc : 1 ≤ angleDepth (cs ++ [c])) :
    step ⟨read, .markup (angleDepth cs).toNat cs⟩ c =
      some ⟨read, .markup (angleDepth (cs ++ [c])).toNat (cs ++ [c])⟩ := by
  rw [angleDepth_append] at hc ⊢
  by_cases hopen : c = '<'
  · subst hopen
    rw [angleDepth_open] at hc ⊢
    have : (angleDepth cs + 1).toNat = (angleDepth cs).toNat + 1 := by omega
    simp [step, this]
  by_cases hclose : c = '>'
  · subst hclose
    rw [angleDepth_close] at hc ⊢
    have hdepth : ¬ (angleDepth cs).toNat ≤ 1 := by omega
    have : (angleDepth cs + -1).toNat = (angleDepth cs).toNat - 1 := by omega
    simp [step, hdepth, this]
  · have hzero : angleDepth [c] = 0 := angleDepth_eq_zero (by simp [hopen, hclose])
    simp [step, hopen, hclose, hzero]

theorem reads_markup_take (read : List Lexeme) {cs : List Char} (h : IsMarkup cs) {n : Nat}
    (hpos : 0 < n) (hn : n < cs.length) :
    Reads step ⟨read, .between⟩ (cs.take n)
      ⟨read, .markup (angleDepth (cs.take n)).toNat (cs.take n)⟩ := by
  induction n with
  | zero => exact absurd hpos (Nat.lt_irrefl 0)
  | succ n ih =>
    rcases Nat.eq_zero_or_pos n with rfl | hpos'
    · obtain ⟨rest, rfl⟩ := List.head?_eq_some_iff.1 h.opens
      exact .one rfl
    · have hlt : n < cs.length := by omega
      have htake : cs.take (n + 1) = cs.take n ++ [cs[n]] := List.take_succ_eq_append_getElem hlt
      have hc := h.inside (n + 1) hn (Nat.succ_pos n)
      rw [htake] at hc ⊢
      exact (ih hpos' hlt).append (.one (step_markup read (h.inside n hlt hpos') hc))

theorem reads_markup (read : List Lexeme) {cs : List Char} (h : IsMarkup cs) :
    Reads step ⟨read, .between⟩ cs ⟨read ++ [.token (String.ofList cs)], .between⟩ := by
  obtain ⟨front, rfl, hone⟩ := h.exists_close
  have hpos : 0 < front.length := by
    refine List.length_pos_iff.2 fun hnil => ?_
    rw [hnil, angleDepth_nil] at hone
    omega
  have hreads := reads_markup_take read h hpos (by simp)
  rw [List.take_left, hone] at hreads
  refine hreads.append (.one ?_)
  simp [step]

theorem reads_bareToken (read : List Lexeme) {cs : List Char} (hne : cs ≠ [])
    (h : ∀ c ∈ cs, isBareChar c = true) :
    Reads step ⟨read, .between⟩ cs ⟨read, .bare cs⟩ := by
  obtain ⟨c, ds, rfl⟩ := List.exists_cons_of_ne_nil hne
  obtain ⟨hc, hds⟩ := List.forall_mem_cons.1 h
  exact .cons (begin_bare read hc) (reads_bare read hds)

theorem reads_numeral (read : List Lexeme) {cs : List Char} (h : isNumeral cs = true) :
    Reads step ⟨read, .between⟩ cs ⟨read, .bare cs⟩ := by
  unfold isNumeral at h
  split at h
  · rename_i ds
    obtain ⟨hne, hbare⟩ := isBareChar_of_isUnsigned h
    obtain ⟨c, ds, rfl⟩ := List.exists_cons_of_ne_nil hne
    obtain ⟨hc, hds⟩ := List.forall_mem_cons.1 hbare
    have hdash : step ⟨read, .dash⟩ c = some ⟨read, .bare ['-', c]⟩ := by
      have hgt : c ≠ '>' := by rintro rfl; cases hc
      have hminus : c ≠ '-' := by rintro rfl; cases hc
      simp [step, hgt, hminus, hc]
    exact .cons rfl (.cons hdash (reads_bare read hds))
  · obtain ⟨hne, hbare⟩ := isBareChar_of_isUnsigned h
    exact reads_bareToken read hne hbare

/-- A word ends where a delimiter stands, which is read as the beginning of what follows. -/
theorem step_bare {read : List Lexeme} {cs : List Char} {l : Lexeme} (h : bareLexeme? cs = some l)
    {c : Char} (hc : isBareChar c = false) :
    step ⟨read, .bare cs⟩ c = step ⟨read ++ [l], .between⟩ c := by
  simp [step, hc, h]

/-- **A token is read as itself**, if a delimiter follows. -/
theorem reads_token (read : List Lexeme) {s : String} (h : IsName s) {c : Char}
    (hc : isBareChar c = false) {t : Lexer}
    (ht : step ⟨read ++ [.token s], .between⟩ c = some t) :
    Reads step ⟨read, .between⟩ (s.toList ++ [c]) t := by
  have hbare : ∀ l, bareLexeme? s.toList = some l → l = .token s →
      Reads step ⟨read, .between⟩ s.toList ⟨read, .bare s.toList⟩ →
        Reads step ⟨read, .between⟩ (s.toList ++ [c]) t := by
    rintro l hl rfl hreads
    exact hreads.append (.one ((step_bare hl hc).trans ht))
  cases h.token with
  | identifier hid =>
    obtain ⟨hne, hall⟩ := isBareChar_of_isIdentifier hid
    refine hbare (.token s) ?_ rfl (reads_bareToken read hne hall)
    simp [bareLexeme?, hid, h.not_keyword]
  | numeral hnum =>
    refine hbare (.token s) ?_ rfl (reads_numeral read hnum)
    simp only [bareLexeme?, hnum, h.not_keyword, if_true, String.ofList_toList, ite_self]
  | quoted hq =>
    refine (reads_quoted read hq).append (.one ?_)
    rwa [String.ofList_toList]
  | markup hm =>
    refine (reads_markup read hm).append (.one ?_)
    rwa [String.ofList_toList]

/-- **A keyword is read as itself**, if a delimiter follows. -/
theorem reads_keyword (read : List Lexeme) (k : Keyword) {c : Char} (hc : isBareChar c = false)
    {t : Lexer} (ht : step ⟨read ++ [.keyword k], .between⟩ c = some t) :
    Reads step ⟨read, .between⟩ (k.text.toList ++ [c]) t := by
  obtain ⟨hne, hall⟩ := isBareChar_of_isIdentifier k.isIdentifier_text
  have hk : bareLexeme? k.text.toList = some (.keyword k) := by
    simp [bareLexeme?, k.isIdentifier_text, k.ofWord?_text]
  exact (reads_bareToken read hne hall).append (.one ((step_bare hk hc).trans ht))

end Lexer

end DotWriter
