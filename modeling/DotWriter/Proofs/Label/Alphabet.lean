import DotWriter.Proofs.Attribute.Check
import DotWriter.Proofs.Label.Reference
import DotWriter.Proofs.Value.Alphabet

/-!
# What attributes of tags are written with

Inside a label the angle brackets, the double quote and the ampersand have a meaning.

* `IsInert` : a text without any of these characters;
* `render_isInert` : every value that a tag may carry, apart from strings, is written without them;
* `storedText_spec` : **the text that a tag keeps for a value stands between double quotes, holds no
  quote and no bracket, and is read back as the value**.
-/

namespace DotWriter

/-- Whether a character has no meaning of its own inside a label. -/
def isInert (c : Char) : Bool := c != '<' && c != '>' && c != '"' && c != '&'

/-- A text without characters that have a meaning inside a label. -/
def IsInert (cs : List Char) : Prop := ∀ c ∈ cs, isInert c = true

instance (cs : List Char) : Decidable (IsInert cs) :=
  decidable_of_iff (cs.all isInert = true) List.all_eq_true

theorem IsInert.of_upperHex {cs : List Char} (h : ∀ c ∈ cs, c ∈ upperHexDigits) :
    IsInert cs := by
  have hall : IsInert upperHexDigits := by decide
  exact fun c hc => hall c (h c hc)

theorem isInert_of_isValueChar {c : Char} (h : isValueChar c = true) : isInert c = true := by
  unfold isInert
  simp only [Bool.and_eq_true, bne_iff_ne]
  refine ⟨⟨⟨?_, ?_⟩, ?_⟩, ?_⟩ <;> rintro rfl <;> exact absurd h (by decide)

/-! ### Values of tags -/

/-- The kinds of values that tags carry. -/
def labelKinds : List Kind := [
  .bool, .int, .double, .string, .escString, .color, .sides, .member .alignment, .member .scale,
  .member .htmlStyle]

theorem HtmlAttribute.kinds_subset (a : HtmlAttribute) : ∀ k ∈ a.spec.kinds, k ∈ labelKinds := by
  cases a <;> decide

theorem HtmlAttribute.exists_kind (a : HtmlAttribute) {v : Value} (ha : a.spec.Admits v) :
    ∃ k ∈ labelKinds, Kind.of? v = some k := by
  obtain ⟨k, hk, hcovers⟩ := ha.kind
  exact ⟨k, a.kinds_subset k hk, by simpa [Kind.accepts] using Kind.accepts_iff.2 hcovers⟩

/-- Apart from strings, tags carry no values with delimiters or free texts. -/
theorem HtmlAttribute.not_hasDelimiters (a : HtmlAttribute) {v : Value} (ha : a.spec.Admits v)
    (hs : ∀ s, v ≠ .string s) (he : ∀ s, v ≠ .escString s) :
    v.hasDelimiters = false ∧ v.freeTexts = [] := by
  obtain ⟨k, hkind, hof⟩ := a.exists_kind ha
  cases v with
  | string s => exact absurd rfl (hs s)
  | escString s => exact absurd rfl (he s)
  | label | portPos | layerList | layerRange | viewPort =>
    cases hof
    exact absurd hkind (by decide)
  | _ => exact ⟨rfl, rfl⟩

/-- **Apart from strings, what a tag may carry is written without characters that have a meaning
inside a label.** -/
theorem render_isInert {a : HtmlAttribute} {v : Value} (ha : a.spec.Admits v)
    (hs : ∀ s, v ≠ .string s) (he : ∀ s, v ≠ .escString s) {text : String}
    (h : v.render = .ok text) : IsInert text.toList := by
  obtain ⟨hv, hfree⟩ := a.not_hasDelimiters ha hs he
  intro c hc
  rcases Value.render_chars hv h c hc with hchar | ⟨s, hmem, -⟩
  · exact isInert_of_isValueChar hchar
  · rw [hfree] at hmem
    exact absurd hmem List.not_mem_nil

/-- What is read back of a value: a string without its control characters, and of every other value
its text. -/
def Value.shownText : Value → Except Fault String
  | .string s | .escString s => .ok (cleanText s)
  | v => v.render

/-- What may stand between the quotes of an attribute. -/
def IsQuotable (cs : List Char) : Prop := ∀ c ∈ cs, c ≠ '<' ∧ c ≠ '>' ∧ c ≠ '"'

theorem IsInert.isQuotable {cs : List Char} (h : IsInert cs) : IsQuotable cs := by
  intro c hc
  have := h c hc
  simp only [isInert, Bool.and_eq_true, bne_iff_ne] at this
  exact ⟨this.1.1.1, this.1.1.2, this.1.2⟩

theorem IsInert.decode {cs : List Char} (h : IsInert cs) : decodeReferences cs = some cs :=
  decodeReferences_of_not_mem fun hamp => absurd (h '&' hamp) (by decide)

theorem escapeHtmlChar_isQuotable (c : Char) : IsQuotable (escapeHtmlChar c) := by
  unfold escapeHtmlChar
  split_ifs with hcontrol hplain
  · exact fun _ h => absurd h List.not_mem_nil
  · intro d hd
    rw [List.mem_singleton.1 hd]
    refine ⟨?_, ?_, ?_⟩ <;> rintro rfl <;> exact absurd hplain (by decide)
  · have hdigits : IsQuotable (referenceDigits c.toNat) :=
      (IsInert.of_upperHex fun _ => mem_referenceDigits).isQuotable
    intro d hd
    simp only [List.mem_cons, List.mem_append, List.mem_nil_iff, or_false] at hd
    rcases hd with rfl | rfl | rfl | hd | rfl
    · decide
    · decide
    · decide
    · exact hdigits d hd
    · decide

theorem escapeHtml_isQuotable (s : String) : IsQuotable (escapeHtml s).toList := by
  intro c hc
  rw [escapeHtml, String.toList_ofList] at hc
  obtain ⟨d, -, hd⟩ := List.mem_flatMap.1 hc
  exact escapeHtmlChar_isQuotable d c hd

/-- A text between double quotes, without quotes or brackets in it, that is read back as `shown`. -/
def ReadsBack (text shown : String) : Prop :=
  ∃ cs, text.toList = '"' :: (cs ++ ['"']) ∧ IsQuotable cs ∧
    decodeReferences cs = some shown.toList

theorem ReadsBack.of_escaped (s : String) :
    ReadsBack ("\"" ++ escapeHtml s ++ "\"") (cleanText s) :=
  ⟨(escapeHtml s).toList, by simp, escapeHtml_isQuotable s, decodeReferences_escapeHtml s⟩

theorem ReadsBack.of_inert {text : String} (h : IsInert text.toList) :
    ReadsBack ("\"" ++ text ++ "\"") text :=
  ⟨text.toList, by simp, h.isQuotable, h.decode⟩

/-- **The text that a tag keeps for a value stands between double quotes, holds no quote and no
bracket, and is read back as the value.** -/
theorem storedText_spec {a : HtmlAttribute} {v : Value} {text : String} (ha : a.spec.Admits v)
    (h : storedText (.html a) v = .ok text) :
    ∃ shown, v.shownText = .ok shown ∧ ReadsBack text shown := by
  by_cases hs : ∃ s, v = .string s ∨ v = .escString s
  · obtain ⟨s, rfl | rfl⟩ := hs
    · cases h
      exact ⟨cleanText s, rfl, .of_escaped s⟩
    · cases h
      exact ⟨cleanText s, rfl, .of_escaped s⟩
  · have hstring : ∀ s, v ≠ .string s := fun s heq => hs ⟨s, .inl heq⟩
    have hesc : ∀ s, v ≠ .escString s := fun s heq => hs ⟨s, .inr heq⟩
    obtain ⟨hdelimiters, -⟩ := a.not_hasDelimiters ha hstring hesc
    have hshown : v.shownText = v.render := by
      cases v with
      | string s => exact absurd rfl (hstring s)
      | escString s => exact absurd rfl (hesc s)
      | _ => rfl
    rw [Value.storedText_eq hdelimiters] at h
    obtain ⟨shown, hr, h⟩ := Outcome.bind_eq_ok.1 h
    cases h
    exact ⟨shown, hshown.trans hr, .of_inert (render_isInert ha hstring hesc hr)⟩

end DotWriter
