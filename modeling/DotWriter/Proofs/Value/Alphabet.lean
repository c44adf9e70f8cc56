import DotWriter.Attribute.Check
import DotWriter.Proofs.Document.Token
import DotWriter.Proofs.Label.Reference
import DotWriter.Proofs.Outcome
import DotWriter.Proofs.Value.Text

/-!
# What values are written with

Apart from strings and labels, values are written with letters, digits and a few marks.  Only the
names of ports, of layers and of the node in the centre of a view port are taken over as they are.

* `isValueChar` : the characters of numbers, words and colors, and what stands between them;
* `PlainColor.render_isColorChar` : the characters of a color that is no list;
* `Value.freeTexts` : the texts that a value takes over as they are;
* `Value.render_chars` : **a value is written with these characters and its free texts**;
* `Value.mem_render_of_mem_freeTexts` : no character of a free text is lost.
-/

namespace DotWriter

/-- The characters of numbers, words and colors, and the marks between them. -/
def isValueChar (c : Char) : Bool := isBareChar c || "#+,-:;! '".toList.contains c

/-- A text of such characters. -/
def IsValueText (cs : List Char) : Prop := ∀ c ∈ cs, isValueChar c = true

instance (cs : List Char) : Decidable (IsValueText cs) :=
  decidable_of_iff (cs.all isValueChar = true) List.all_eq_true

namespace IsValueText

variable {cs ds : List Char}

theorem append (hc : IsValueText cs) (hd : IsValueText ds) : IsValueText (cs ++ ds) :=
  fun c h => (List.mem_append.1 h).elim (hc c) (hd c)

theorem of_bare (h : ∀ c ∈ cs, isBareChar c = true) : IsValueText cs := by
  intro c hc
  simp [isValueChar, h c hc]

theorem of_number (h : IsNumberText cs) : IsValueText cs := by
  intro c hc
  have hc' := h c hc
  unfold isNumberChar at hc'
  simp only [Bool.or_eq_true, beq_iff_eq] at hc'
  rcases hc' with (hdigit | rfl) | rfl
  · simp [isValueChar, isBareChar_of_isDigit hdigit]
  · decide
  · decide

end IsValueText

/-! ### Texts with separators -/

theorem mem_toList_intercalate {sep : String} {texts : List String} {c : Char}
    (h : c ∈ (String.intercalate sep texts).toList) :
    c ∈ sep.toList ∨ ∃ t ∈ texts, c ∈ t.toList := by
  rw [String.toList_intercalate] at h
  induction texts with
  | nil => simp at h
  | cons t texts ih =>
    cases texts with
    | nil => exact .inr ⟨t, List.mem_cons_self, by simpa using h⟩
    | cons u texts =>
      rw [List.map_cons, List.map_cons, List.intercalate_cons_cons] at h
      rcases List.mem_append.1 h with h | h
      · rcases List.mem_append.1 h with h | h
        · exact .inr ⟨t, List.mem_cons_self, h⟩
        · exact .inl h
      · rcases ih h with hsep | ⟨s, hs, hc⟩
        · exact .inl hsep
        · exact .inr ⟨s, List.mem_cons_of_mem t hs, hc⟩

theorem mem_intercalate_of_mem {sep : String} {texts : List String} {t : String} (ht : t ∈ texts)
    {c : Char} (hc : c ∈ t.toList) : c ∈ (String.intercalate sep texts).toList := by
  rw [String.toList_intercalate]
  induction texts with
  | nil => exact absurd ht List.not_mem_nil
  | cons u texts ih =>
    cases texts with
    | nil =>
      rw [List.mem_singleton.1 ht] at hc
      simpa using hc
    | cons v texts =>
      rw [List.map_cons, List.map_cons, List.intercalate_cons_cons]
      rcases List.mem_cons.1 ht with rfl | ht
      · exact List.mem_append_left _ (List.mem_append_left _ hc)
      · exact List.mem_append_right _ (ih ht)

theorem IsValueText.intercalate {sep : String} (hsep : IsValueText sep.toList)
    {texts : List String} (h : ∀ t ∈ texts, IsValueText t.toList) :
    IsValueText (String.intercalate sep texts).toList := by
  intro c hc
  rcases mem_toList_intercalate hc with hc | ⟨t, ht, hc⟩
  · exact hsep c hc
  · exact h t ht c hc

/-! ### Words and colors -/

theorem Member.text_isIdentifier {e : Enumeration} (m : Member e) :
    isIdentifier m.text.toList = true := by
  have hall : ∀ t ∈ e.texts, isIdentifier t.toList = true := by
    cases e <;> decide +kernel
  exact hall m.text m.mem_texts

theorem Member.isValueText {e : Enumeration} (m : Member e) : IsValueText m.text.toList :=
  .of_bare (isBareChar_of_isIdentifier m.text_isIdentifier).2

/-- Names of colors are identifiers in lower case. -/
theorem ColorName.spec (c : ColorName) :
    isIdentifier c.name.toList = true ∧ c.name.toList.map lowerChar = c.name.toList := by
  have hall : ∀ p ∈ x11Colors, isAscii p.1 = true ∧ isIdentifier (asciiChars p.1) = true ∧
      (asciiChars p.1).map lowerChar = asciiChars p.1 := by decide +kernel
  obtain ⟨code, hcode⟩ := Option.isSome_iff_exists.1 c.known
  obtain ⟨p, hp, -⟩ := Option.map_eq_some_iff.1 hcode
  have hname : p.1 = c.name := by simpa using List.find?_some hp
  obtain ⟨hascii, hspec⟩ := hall p (List.mem_of_find?_eq_some hp)
  rwa [← hname, toList_eq_asciiChars hascii]

theorem mem_hexByte {b : UInt8} {c : Char} (h : c ∈ hexByte b) : c ∈ upperHexDigits := by
  rw [hexByte, hexPadded, List.map_append] at h
  rcases List.mem_append.1 h with h | h
  · rw [List.map_replicate] at h
    rw [(List.mem_replicate.1 h).2]
    decide
  · exact mem_toDigits_upper h

/-- The characters of colors that are no lists. -/
def isColorChar (c : Char) : Bool := isBareChar c || c == '#'

theorem isValueChar_of_isColorChar {c : Char} (h : isColorChar c = true) : isValueChar c = true := by
  rcases Bool.or_eq_true_iff.1 h with h | h
  · simp [isValueChar, h]
  · rw [beq_iff_eq.1 h]
    decide

theorem isColorChar_hexByte {b : UInt8} {c : Char} (h : c ∈ hexByte b) : isColorChar c = true := by
  have hall : upperHexDigits.all isColorChar = true := by decide
  exact List.all_eq_true.1 hall c (mem_hexByte h)

theorem Rgb.isColorChar_chars {color : Rgb} {c : Char} (h : c ∈ color.chars) :
    isColorChar c = true := by
  simp only [chars, List.mem_cons, List.mem_append] at h
  rcases h with rfl | (h | h) | h
  · decide
  · exact isColorChar_hexByte h
  · exact isColorChar_hexByte h
  · exact isColorChar_hexByte h

/-- A color that is no list is written with letters, digits and number signs. -/
theorem PlainColor.render_isColorChar {color : PlainColor} {text : String}
    (h : color.render = .ok text) : ∀ c ∈ text.toList, isColorChar c = true := by
  cases color with
  | rgb color =>
    obtain rfl : color.render = text := Except.ok.inj h
    rw [Rgb.render, String.toList_ofList]
    exact fun c hc => Rgb.isColorChar_chars hc
  | rgba color alpha =>
    obtain rfl : String.ofList (color.chars ++ hexByte alpha) = text := Except.ok.inj h
    rw [String.toList_ofList]
    exact fun c hc => (List.mem_append.1 hc).elim Rgb.isColorChar_chars isColorChar_hexByte
  | hsv color =>
    obtain ⟨rgb, -, rfl⟩ := Outcome.map_eq_ok.1 h
    rw [Rgb.render, String.toList_ofList]
    exact fun c hc => Rgb.isColorChar_chars hc
  | named name =>
    obtain rfl : name.name = text := Except.ok.inj h
    intro c hc
    rw [isColorChar, (isBareChar_of_isIdentifier name.spec.1).2 c hc, Bool.true_or]

theorem PlainColor.render_isValueText {color : PlainColor} {text : String}
    (h : color.render = .ok text) : IsValueText text.toList := fun c hc =>
  isValueChar_of_isColorChar (render_isColorChar h c hc)

theorem ColorList.renderEntry_isValueText {e : PlainColor × Option Double} {text : String}
    (h : renderEntry e = .ok text) : IsValueText text.toList := by
  obtain ⟨color, hcolor, h⟩ := Outcome.bind_eq_ok.1 h
  have hc := PlainColor.render_isValueText hcolor
  cases hw : e.2 with
  | none =>
    rw [hw] at h
    cases h
    exact hc
  | some w =>
    rw [hw] at h
    cases h
    rw [String.toList_append, String.toList_append]
    exact (hc.append (by decide)).append (.of_number (isNumberText_fixed w))

theorem Color.render_isValueText {c : Color} {text : String} (h : c.render = .ok text) :
    IsValueText text.toList := by
  cases c with
  | plain c => exact PlainColor.render_isValueText h
  | list l =>
    obtain ⟨texts, htexts, h⟩ := Outcome.bind_eq_ok.1 h
    cases h
    refine .intercalate (by decide) fun t ht => ?_
    obtain ⟨e, -, he⟩ := Outcome.exists_of_mem_mapM_ok htexts ht
    exact ColorList.renderEntry_isValueText he

theorem Sides.isValueText (s : Sides) : IsValueText s.text.toList := by
  obtain ⟨l, r, b, t⟩ := s
  revert l r b t
  decide +kernel

/-! ### Numbers -/

theorem fixed_isValueText (x : Double) : IsValueText x.fixed.toList :=
  .of_number (isNumberText_fixed x)

theorem Point.render_isValueText (p : Point) : IsValueText p.render.toList := by
  rw [Point.render, String.toList_append]
  refine .append (.intercalate (by decide) fun t ht => ?_) ?_
  · obtain ⟨x, -, rfl⟩ := List.mem_map.1 ht
    exact fixed_isValueText x
  · split_ifs <;> decide

theorem AddPoint.render_isValueText (a : AddPoint) : IsValueText a.render.toList := by
  simp only [AddPoint.render, String.toList_append]
  refine .append (.append (.append ?_ (fixed_isValueText _)) (by decide)) (fixed_isValueText _)
  split_ifs <;> decide

theorem AddDouble.render_isValueText (a : AddDouble) : IsValueText a.render.toList := by
  rw [AddDouble.render, String.toList_append]
  refine .append ?_ (fixed_isValueText _)
  split_ifs <;> decide

/-! ### Values -/

namespace Value

/-- Whether the value is written with delimiters of its own: strings and labels are. -/
def hasDelimiters : Value → Bool
  | string _ | escString _ | label _ => true
  | _ => false

/-- Every other value is kept between double quotes. -/
theorem storedText_eq {v : Value} (hv : v.hasDelimiters = false) (attr : AttributeId) :
    storedText attr v = do return "\"" ++ (← v.render) ++ "\"" := by
  cases v with
  | string | escString | label => cases hv
  | _ => rfl

/-- The names that an item of a selection of layers is written with. -/
def layerTexts : Raw → List String
  | .text s => [s]
  | .list (first :: last :: _) => [first.plain, last.plain]
  | _ => []

/-- The name of the node in the centre of a view port. -/
def centerTexts : Center → List String
  | .node name => [name]
  | _ => []

/-- The texts that a value takes over as they are: the name of a port, names of layers, the node in
the centre of a view port. -/
def freeTexts : Value → List String
  | portPos p => p.portName?.toList
  | layerList l => l.names.map Raw.plain
  | layerRange l => l.items.flatMap layerTexts
  | viewPort v => centerTexts v.center
  | _ => []

/-- What a text is made of if it is written with the characters of values and some free texts. -/
def MadeOf (text : String) (free : List String) : Prop :=
  ∀ c ∈ text.toList, isValueChar c = true ∨ ∃ s ∈ free, c ∈ s.toList

theorem madeOf_of_isValueText {text : String} {free : List String}
    (h : IsValueText text.toList) : MadeOf text free := fun c hc => .inl (h c hc)

theorem portPos_madeOf (p : PortPos) : MadeOf p.render p.portName?.toList := by
  intro c hc
  rcases mem_toList_intercalate hc with hc | ⟨t, ht, hc⟩
  · exact .inl ((by decide : IsValueText ":".toList) c hc)
  · rcases List.mem_append.1 ht with ht | ht
    · exact .inr ⟨t, ht, hc⟩
    · obtain ⟨m, -, rfl⟩ := Option.map_eq_some_iff.1 (Option.mem_toList.1 ht)
      exact .inl (m.isValueText c hc)

theorem layerList_madeOf {l : LayerList} {text : String} (h : l.render = .ok text) :
    MadeOf text (l.names.map Raw.plain) := by
  obtain ⟨texts, htexts, h⟩ := Outcome.bind_eq_ok.1 h
  cases h
  intro c hc
  rcases mem_toList_intercalate hc with hc | ⟨t, ht, hc⟩
  · exact .inl ((by decide : IsValueText ":".toList) c hc)
  · obtain ⟨r, hr, hname⟩ := Outcome.exists_of_mem_mapM_ok htexts ht
    cases r <;> cases hname
    exact .inr ⟨t, List.mem_map.2 ⟨.text t, hr, rfl⟩, hc⟩

theorem layerItem_madeOf {r : Raw} {text : String} (h : LayerRange.renderItem r = .ok text) :
    MadeOf text (layerTexts r) := by
  unfold LayerRange.renderItem at h
  split at h
  · cases h
    exact fun c hc => .inr ⟨_, List.mem_cons_self, hc⟩
  · rename_i first last rest
    cases h
    intro c hc
    rw [String.toList_append, String.toList_append] at hc
    rcases List.mem_append.1 hc with hc | hc
    · rcases List.mem_append.1 hc with hc | hc
      · exact .inr ⟨first.plain, List.mem_cons_self, hc⟩
      · exact .inl ((by decide : IsValueText ":".toList) c hc)
    · exact .inr ⟨last.plain, List.mem_cons_of_mem _ List.mem_cons_self, hc⟩
  · cases h
  · cases h

theorem layerRange_madeOf {l : LayerRange} {text : String} (h : l.render = .ok text) :
    MadeOf text (l.items.flatMap layerTexts) := by
  obtain ⟨texts, htexts, h⟩ := Outcome.bind_eq_ok.1 h
  cases h
  intro c hc
  rcases mem_toList_intercalate hc with hc | ⟨t, ht, hc⟩
  · exact .inl ((by decide : IsValueText ",".toList) c hc)
  · obtain ⟨r, hr, hitem⟩ := Outcome.exists_of_mem_mapM_ok htexts ht
    rcases layerItem_madeOf hitem c hc with hc | ⟨s, hs, hc⟩
    · exact .inl hc
    · exact .inr ⟨s, List.mem_flatMap.2 ⟨r, hr, hs⟩, hc⟩

theorem viewPort_madeOf (v : ViewPort) : MadeOf v.render (centerTexts v.center) := by
  have hsize : IsValueText
      (String.intercalate "," ([v.width, v.height, v.zoom].map Double.fixed)).toList := by
    refine .intercalate (by decide) fun t ht => ?_
    obtain ⟨x, -, rfl⟩ := List.mem_map.1 ht
    exact fixed_isValueText x
  unfold ViewPort.render
  cases v.center with
  | none => exact madeOf_of_isValueText hsize
  | point p =>
    refine madeOf_of_isValueText ?_
    simp only [String.toList_append]
    exact (hsize.append (by decide)).append p.render_isValueText
  | node name =>
    intro c hc
    dsimp only at hc
    split_ifs at hc
    · exact .inl (hsize c hc)
    · simp only [String.toList_append, List.mem_append] at hc
      rcases hc with ((hc | hc) | hc) | hc
      · exact .inl (hsize c hc)
      · exact .inl ((by decide : IsValueText ",'".toList) c hc)
      · exact .inr ⟨name, List.mem_singleton_self name, hc⟩
      · exact .inl ((by decide : IsValueText "'".toList) c hc)

/-- **Apart from strings and labels, a value is written with the characters of values and its free
texts.** -/
theorem render_chars {v : Value} (hv : v.hasDelimiters = false) {text : String}
    (h : v.render = .ok text) : MadeOf text v.freeTexts := by
  cases v with
  | string s => cases hv
  | escString s => cases hv
  | label n => cases hv
  | portPos p => cases h; exact portPos_madeOf p
  | layerList l => exact layerList_madeOf h
  | layerRange l => exact layerRange_madeOf h
  | viewPort v => cases h; exact viewPort_madeOf v
  | color c => exact madeOf_of_isValueText (Color.render_isValueText h)
  | id x =>
    cases h
    exact madeOf_of_isValueText (.of_bare (isBareChar_of_isIdentifier x.valid).2)
  | bool given =>
    cases h
    refine madeOf_of_isValueText ?_
    cases given.isTruthy <;> decide
  | int n => cases h; exact madeOf_of_isValueText (.of_number (isNumberText_int n.val))
  | double x => cases h; exact madeOf_of_isValueText (fixed_isValueText x)
  | point p => cases h; exact madeOf_of_isValueText p.render_isValueText
  | pointList ps =>
    cases h
    refine madeOf_of_isValueText (.intercalate (by decide) fun t ht => ?_)
    obtain ⟨p, -, rfl⟩ := List.mem_map.1 ht
    exact p.render_isValueText
  | rect r =>
    cases h
    refine madeOf_of_isValueText ?_
    simp only [Rect.render, String.toList_append]
    exact (r.lowerLeft.render_isValueText.append (by decide)).append
      r.upperRight.render_isValueText
  | doubleList xs =>
    cases h
    refine madeOf_of_isValueText (.intercalate (by decide) fun t ht => ?_)
    obtain ⟨x, -, rfl⟩ := List.mem_map.1 ht
    exact fixed_isValueText x
  | addDouble a => cases h; exact madeOf_of_isValueText a.render_isValueText
  | addPoint a => cases h; exact madeOf_of_isValueText a.render_isValueText
  | styleList styles =>
    cases h
    refine madeOf_of_isValueText (.intercalate (by decide) fun t ht => ?_)
    obtain ⟨m, -, rfl⟩ := List.mem_map.1 ht
    exact m.isValueText
  | member e m => cases h; exact madeOf_of_isValueText m.isValueText
  | sides s => cases h; exact madeOf_of_isValueText s.isValueText

/-- **No character of a free text is lost.** -/
theorem mem_render_of_mem_freeTexts {v : Value} {text : String} (h : v.render = .ok text)
    {s : String} (hs : s ∈ v.freeTexts) {c : Char} (hc : c ∈ s.toList) : c ∈ text.toList := by
  cases v with
  | portPos p =>
    cases h
    exact mem_intercalate_of_mem (List.mem_append_left _ hs) hc
  | layerList l =>
    obtain ⟨texts, htexts, h⟩ := Outcome.bind_eq_ok.1 h
    cases h
    obtain ⟨r, hr, rfl⟩ := List.mem_map.1 hs
    obtain ⟨t, ht, hname⟩ := Outcome.exists_mem_of_mapM_ok htexts hr
    cases r <;> cases hname
    exact mem_intercalate_of_mem ht hc
  | layerRange l =>
    obtain ⟨texts, htexts, h⟩ := Outcome.bind_eq_ok.1 h
    cases h
    obtain ⟨r, hr, hs⟩ := List.mem_flatMap.1 hs
    obtain ⟨t, ht, hitem⟩ := Outcome.exists_mem_of_mapM_ok htexts hr
    refine mem_intercalate_of_mem ht ?_
    unfold layerTexts at hs
    split at hs
    · cases hitem
      rwa [← List.mem_singleton.1 hs]
    · cases hitem
      simp only [List.mem_cons, List.mem_nil_iff, or_false] at hs
      simp only [String.toList_append, List.mem_append]
      rcases hs with rfl | rfl
      · exact .inl (.inl hc)
      · exact .inr hc
    · exact absurd hs List.not_mem_nil
  | viewPort v =>
    cases h
    have hs' : s ∈ centerTexts v.center := hs
    cases hcenter : v.center with
    | node name =>
      rw [hcenter] at hs'
      rw [List.mem_singleton.1 hs'] at hc
      have hne : name ≠ "" := by
        rintro rfl
        exact absurd hc (by simp)
      simp only [ViewPort.render, hcenter, hne, if_false, String.toList_append, List.mem_append]
      exact .inl (.inr hc)
    | none | point => rw [hcenter] at hs'; exact absurd hs' List.not_mem_nil
  | _ => exact absurd (show s ∈ [] from hs) List.not_mem_nil

end Value

end DotWriter
