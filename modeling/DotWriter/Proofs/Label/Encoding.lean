import DotWriter.Proofs.Label.Alphabet

/-!
# Escaping as an encoding

Text that is escaped for a label can go through anything that keeps printable ASCII and treats
markup as such, and comes back whole but for its control characters.

* `IsPrintable` : texts of the printable characters of ASCII;
* `ReferencesOnly` : texts in which an ampersand stands only in front of a reference;
* `visible` : the characters of a text that are kept;
* `escapeHtml_laws` : **escaping is safe, and two texts are escaped alike exactly if they differ by
  control characters only**.
-/

namespace DotWriter

/-- A text of the printable characters of ASCII. -/
def IsPrintable (cs : List Char) : Prop := ∀ c ∈ cs, 0x20 ≤ c.toNat ∧ c.toNat ≤ 0x7E

instance (cs : List Char) : Decidable (IsPrintable cs) :=
  decidable_of_iff (cs.all (fun c => 0x20 ≤ c.toNat ∧ c.toNat ≤ 0x7E) = true) (by
    simp [IsPrintable])

/-- What follows the ampersand of a reference: the mark of hexadecimal numbers, at least four digits
in upper case and a semicolon. -/
def GoesOnAsReference (cs : List Char) : Prop :=
  ∃ digits rest, cs = '#' :: 'x' :: (digits ++ ';' :: rest) ∧ 4 ≤ digits.length ∧
    ∀ d ∈ digits, d ∈ upperHexDigits

/-- An ampersand stands only in front of a reference. -/
def ReferencesOnly (cs : List Char) : Prop :=
  ∀ before after, cs = before ++ '&' :: after → GoesOnAsReference after

/-- The characters of a text that are kept: all but those from `U+0000` to `U+001F` and from
`U+007F` to `U+009F`. -/
def visible (s : String) : List Char :=
  s.toList.filter fun c => 0x1F < c.toNat && (c.toNat < 0x7F || 0x9F < c.toNat)

theorem cleanText_toList (s : String) : (cleanText s).toList = visible s := by
  have hkept : ∀ c : Char,
      (!isControl c) = (0x1F < c.toNat && (c.toNat < 0x7F || 0x9F < c.toNat)) := by
    intro c
    rw [isControl, Bool.eq_iff_iff]
    simp only [Bool.not_eq_true', Bool.or_eq_false_iff, Bool.and_eq_false_iff,
      decide_eq_false_iff_not, Bool.and_eq_true, Bool.or_eq_true, decide_eq_true_eq]
    omega
  rw [cleanText, String.toList_ofList, visible]
  exact List.filter_congr fun c _ => hkept c

/-! ### Texts with references -/

theorem GoesOnAsReference.append {cs : List Char} (h : GoesOnAsReference cs) (ds : List Char) :
    GoesOnAsReference (cs ++ ds) := by
  obtain ⟨digits, rest, rfl, hlength, hdigits⟩ := h
  exact ⟨digits, rest ++ ds, by simp, hlength, hdigits⟩

namespace ReferencesOnly

theorem of_not_mem {cs : List Char} (h : '&' ∉ cs) : ReferencesOnly cs := by
  rintro before after rfl
  exact absurd (List.mem_append_right before List.mem_cons_self) h

/-- The ampersand of a reference is its only one. -/
theorem of_reference {digits : List Char} (hlength : 4 ≤ digits.length)
    (hdigits : ∀ d ∈ digits, d ∈ upperHexDigits) :
    ReferencesOnly ('&' :: '#' :: 'x' :: (digits ++ [';'])) := by
  have hnot : '&' ∉ '#' :: 'x' :: (digits ++ [';']) := by
    intro h
    simp only [List.mem_cons, List.mem_append, List.mem_nil_iff, or_false] at h
    rcases h with h | h | h | h
    · exact absurd h (by decide)
    · exact absurd h (by decide)
    · exact absurd (hdigits _ h) (by decide)
    · exact absurd h (by decide)
  intro before after h
  cases before with
  | nil =>
    obtain rfl : _ = after := (List.cons.inj h).2
    exact ⟨digits, [], rfl, hlength, hdigits⟩
  | cons c before =>
    rw [List.cons_append, List.cons.injEq] at h
    exact absurd (h.2 ▸ List.mem_append_right before List.mem_cons_self) hnot

theorem append {cs ds : List Char} (hcs : ReferencesOnly cs) (hds : ReferencesOnly ds) :
    ReferencesOnly (cs ++ ds) := by
  intro before after h
  -- the ampersand stands in the second text, or in the first one, which goes on with the second
  rcases List.append_eq_append_iff.1 h with ⟨mid, -, hmid⟩ | ⟨mid, hmid, hrest⟩
  · exact hds mid after hmid
  · cases mid with
    | nil => exact hds [] after hrest.symm
    | cons c mid =>
      rw [List.cons_append, List.cons.injEq] at hrest
      obtain ⟨rfl, rfl⟩ := hrest
      exact (hcs before mid hmid).append ds

end ReferencesOnly

/-! ### One character -/

theorem length_referenceDigits (n : Nat) : 4 ≤ (referenceDigits n).length := by
  rw [referenceDigits, List.length_append, List.length_replicate]
  omega

theorem isPrintable_upperHexDigits : IsPrintable upperHexDigits := by decide

theorem escapeHtmlChar_isPrintable (c : Char) : IsPrintable (escapeHtmlChar c) := by
  unfold escapeHtmlChar
  split_ifs with hcontrol hplain
  · exact fun _ h => absurd h List.not_mem_nil
  · -- what stands for itself ends before the second block of control characters
    simp only [isControl, isPlainHtml, Bool.or_eq_true, Bool.and_eq_true, decide_eq_true_eq] at *
    intro d hd
    rw [List.mem_singleton.1 hd]
    omega
  · intro d hd
    simp only [List.mem_cons, List.mem_append, List.mem_nil_iff, or_false] at hd
    rcases hd with rfl | rfl | rfl | hd | rfl
    · decide
    · decide
    · decide
    · exact isPrintable_upperHexDigits d (mem_referenceDigits hd)
    · decide

theorem escapeHtmlChar_referencesOnly (c : Char) : ReferencesOnly (escapeHtmlChar c) := by
  unfold escapeHtmlChar
  split_ifs with hcontrol hplain
  · exact .of_not_mem List.not_mem_nil
  · refine .of_not_mem fun h => ?_
    rw [← List.mem_singleton.1 h] at hplain
    exact absurd hplain (by decide)
  · exact .of_reference (length_referenceDigits _) fun _ => mem_referenceDigits

/-! ### Texts -/

theorem escapeHtml_toList (s : String) :
    (escapeHtml s).toList = s.toList.flatMap escapeHtmlChar := by
  rw [escapeHtml, String.toList_ofList]

theorem escapeHtml_isPrintable (s : String) : IsPrintable (escapeHtml s).toList := by
  intro c hc
  rw [escapeHtml_toList] at hc
  obtain ⟨d, -, hd⟩ := List.mem_flatMap.1 hc
  exact escapeHtmlChar_isPrintable d c hd

theorem flatMap_escapeHtmlChar_referencesOnly (cs : List Char) :
    ReferencesOnly (cs.flatMap escapeHtmlChar) := by
  induction cs with
  | nil => exact .of_not_mem List.not_mem_nil
  | cons c cs ih =>
    rw [List.flatMap_cons]
    exact (escapeHtmlChar_referencesOnly c).append ih

/-- Control characters leave no trace. -/
theorem escapeHtml_eq_visible (s : String) :
    (escapeHtml s).toList = (visible s).flatMap escapeHtmlChar := by
  rw [escapeHtml_toList, ← cleanText_toList, cleanText, String.toList_ofList]
  induction s.toList with
  | nil => rfl
  | cons c cs ih =>
    rw [List.flatMap_cons, ih, List.filter_cons]
    cases hcontrol : isControl c with
    | true => simp [escapeHtmlChar, hcontrol]
    | false => simp

/-- What escaping promises of a text. -/
structure EscapeLaws (s : String) : Prop where
  printable : IsPrintable (escapeHtml s).toList
  no_markup : '<' ∉ (escapeHtml s).toList ∧ '>' ∉ (escapeHtml s).toList ∧
    '"' ∉ (escapeHtml s).toList
  references : ReferencesOnly (escapeHtml s).toList
  /-- Reading the references gives the text without its control characters. -/
  decodes : decodeReferences (escapeHtml s).toList = some (visible s)
  /-- Nothing else is lost. -/
  eq_iff : ∀ t, escapeHtml s = escapeHtml t ↔ visible s = visible t

/-- **Escaped text is printable, holds no markup but references, and is read back; two texts are
escaped alike exactly if they differ by control characters only.** -/
theorem escapeHtml_laws (s : String) : EscapeLaws s := by
  have hdecode : ∀ t, decodeReferences (escapeHtml t).toList = some (visible t) := by
    intro t
    rw [decodeReferences_escapeHtml, cleanText_toList]
  have hquotable := escapeHtml_isQuotable s
  refine ⟨escapeHtml_isPrintable s, ⟨fun h => (hquotable _ h).1 rfl,
    fun h => (hquotable _ h).2.1 rfl, fun h => (hquotable _ h).2.2 rfl⟩, ?_, hdecode s,
    fun t => ⟨fun h => ?_, fun h => ?_⟩⟩
  · rw [escapeHtml_toList]
    exact flatMap_escapeHtmlChar_referencesOnly s.toList
  · rw [← Option.some.injEq, ← hdecode, ← hdecode, h]
  · rw [← String.toList_inj, escapeHtml_eq_visible, escapeHtml_eq_visible, h]

/-- The ends of both blocks of control characters, and a character that takes five digits. -/
example : escapeHtml "\u001f ~\u007f\u009f\u00a0😀" = " ~&#x00A0;&#x1F600;" := by
  decide

end DotWriter
