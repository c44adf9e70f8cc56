import DotWriter.Attribute.Reading
import DotWriter.Proofs.Double.Nearest
import DotWriter.Proofs.Outcome
import Mathlib.Tactic.SplitIfs

/-!
# How reading a value may fail

A reader that does not take a datum rejects it, so that the next kind is tried.  There is one other
fault: a whole number may lie beyond all numbers of the 64-bit format.

* `Raw.IsPart` : what a datum is made of;
* `Raw.HoldsTooLarge` : some part of it is a number that is too large;
* `OnlyRejects`, `Raw.ReadFault` : how readers without and with numbers may fail, with a lemma for
  each reader.
-/

namespace DotWriter

open Outcome

/-! ### Parts of data -/

namespace Raw

/-- What a datum is made of: itself, and the parts of the items of a list and of the values of a
mapping. -/
inductive IsPart (r : Raw) : Raw → Prop
  | refl : IsPart r r
  | item {s : Raw} {items : List Raw} (hs : s ∈ items) (h : IsPart r s) : IsPart r (.list items)
  | value {e : Raw × Raw} {entries : List (Raw × Raw)} (he : e ∈ entries) (h : IsPart r e.2) :
      IsPart r (.map entries)

theorem IsPart.trans {r s t : Raw} (hr : IsPart r s) (hs : IsPart s t) : IsPart r t := by
  induction hs with
  | refl => exact hr
  | item hmem _ ih => exact .item hmem ih
  | value hmem _ ih => exact .value hmem ih

/-- The datum holds a whole number beyond all numbers of the 64-bit format. -/
def HoldsTooLarge (r : Raw) : Prop :=
  ∃ n : Int, IsPart (.int n) r ∧ ∀ x : Double, x.toRat < |(n : Rat)|

theorem HoldsTooLarge.of_isPart {r s : Raw} (hr : r.HoldsTooLarge) (h : IsPart r s) :
    s.HoldsTooLarge := by
  obtain ⟨n, hn, hlarge⟩ := hr
  exact ⟨n, hn.trans h, hlarge⟩

theorem not_holdsTooLarge_text (s : String) : ¬ (text s).HoldsTooLarge := by
  rintro ⟨n, ⟨⟩, -⟩

end Raw

/-- A number that cannot be rounded is larger than all numbers of the format. -/
theorem Double.ofInt_eq_error {n : Int} {f : Fault} (h : ofInt n = .error f) :
    f = .tooLarge ∧ ∀ x : Double, x.toRat < |(n : Rat)| := by
  unfold ofInt at h
  split at h
  · cases h
  · rename_i hround
    cases h
    refine ⟨rfl, fun x => ?_⟩
    by_contra hle
    obtain ⟨hlow, hhigh⟩ := abs_le.1 (not_lt.1 hle)
    have hneg : IsExact (-x.toRat) := by
      refine ⟨-x, ?_⟩
      change (if !x.negative then -x.magnitude else x.magnitude) = -x.toRat
      unfold toRat
      cases x.negative <;> simp
    obtain ⟨y, hy, -⟩ := Binary64.round_between hlow hhigh hneg x.isExact false
    exact hround y hy

example : Double.ofInt (2 ^ 1024) = .error .tooLarge := by decide +kernel

/-! ### Readers -/

/-- The computation fails only by a rejection. -/
abbrev OnlyRejects {α : Type} (x : Except Fault α) : Prop :=
  FailsOnly (fun f => f.isRejection = true) x

/-- How a reader may fail: by a rejection, or because of a number that is too large. -/
def Raw.ReadFault (r : Raw) (f : Fault) : Prop :=
  f.isRejection = true ∨ (f = .tooLarge ∧ r.HoldsTooLarge)

theorem OnlyRejects.reads {α : Type} {x : Except Fault α} (h : OnlyRejects x) (r : Raw) :
    FailsOnly r.ReadFault x := h.mono fun _ => .inl

/-- The computation fails only because of a value. -/
abbrev OnlyValueFaults {α : Type} (x : Except Fault α) : Prop :=
  FailsOnly (fun f => f.family = .value) x

theorem OnlyValueFaults.rejects {α : Type} {x : Except Fault α} (h : OnlyValueFaults x) :
    OnlyRejects x :=
  h.mono fun f hf => by rw [Fault.isRejection, hf]

theorem Double.of_failsOnly (what : String) (x : Binary64) :
    OnlyValueFaults (Double.of what x) := by
  unfold Double.of
  split
  · exact .ok _
  · exact .error rfl

theorem Double.of_onlyRejects (what : String) (x : Binary64) : OnlyRejects (Double.of what x) :=
  (Double.of_failsOnly what x).rejects

theorem Integer.of_failsOnly (n : Int) : OnlyValueFaults (Integer.of n) := by
  unfold Integer.of
  split_ifs
  · exact .ok _
  · exact .error rfl

namespace Raw

theorem ReadFault.of_isPart {r s : Raw} (h : IsPart r s) {f : Fault} (hf : r.ReadFault f) :
    s.ReadFault f :=
  hf.imp_right fun hlarge => ⟨hlarge.1, hlarge.2.of_isPart h⟩

/-! #### Numbers -/

theorem readNumber_failsOnly (r : Raw) : FailsOnly r.ReadFault r.readNumber := by
  unfold readNumber
  split
  · rename_i n
    refine FailsOnly.map (fun f hf => ?_) _
    obtain ⟨rfl, hlarge⟩ := Double.ofInt_eq_error hf
    exact .inr ⟨rfl, n, .refl, hlarge⟩
  · exact .ok _
  · split
    · exact .ok _
    · exact .error (.inl rfl)
  · exact .error (.inl rfl)

theorem readNumber_text_onlyRejects (s : String) : OnlyRejects (readNumber (text s)) :=
  fun f hf => (readNumber_failsOnly _ f hf).resolve_right fun h => not_holdsTooLarge_text s h.2

theorem readNumbers_failsOnly (r : Raw) : FailsOnly r.ReadFault r.readNumbers := by
  unfold readNumbers
  split
  · refine .mapM fun s hs => ?_
    exact (readNumber_failsOnly s).mono fun f => ReadFault.of_isPart (.item hs .refl)
  · refine OnlyRejects.reads (.mapM fun s hs => ?_) _
    obtain ⟨part, -, rfl⟩ := List.mem_map.1 hs
    exact readNumber_text_onlyRejects _

theorem readBool_onlyRejects (r : Raw) : OnlyRejects r.readBool := by
  unfold readBool
  split
  · exact .ok _
  · split_ifs
    · exact .ok _
    · exact .ok _
    · exact .error rfl
  · exact .error rfl

theorem readInteger_onlyRejects (r : Raw) : OnlyRejects r.readInteger := by
  unfold readInteger
  split
  · exact (Integer.of_failsOnly _).rejects
  · split
    · exact (Integer.of_failsOnly _).rejects
    · exact .error rfl
  · exact .error rfl

theorem readDouble_failsOnly (r : Raw) : FailsOnly r.ReadFault r.readDouble :=
  (readNumber_failsOnly r).bind fun x _ => (Double.of_onlyRejects _ x).reads r

theorem readString_onlyRejects (r : Raw) : OnlyRejects r.readString := by
  unfold readString
  split
  · exact .ok _
  · exact .ok _
  · exact .ok _
  · exact .error rfl

/-! #### Points -/

theorem pointOf_onlyRejects (marked : Bool) (xs : List Binary64) :
    OnlyRejects (pointOf marked xs) := by
  unfold pointOf
  split
  · exact (Double.of_onlyRejects _ _).bind fun _ _ =>
      (Double.of_onlyRejects _ _).bind fun _ _ => .ok _
  · exact (Double.of_onlyRejects _ _).bind fun _ _ => (Double.of_onlyRejects _ _).bind fun _ _ =>
      (Double.of_onlyRejects _ _).bind fun _ _ => .ok _
  · exact .error rfl

/-- A text without its mark is still a text. -/
theorem cutMark_cases (r : Raw) : r.cutMark.1 = r ∨ ∃ s, r.cutMark.1 = text s := by
  unfold cutMark
  split
  · split
    · exact .inr ⟨_, rfl⟩
    · exact .inr ⟨_, rfl⟩
  · exact .inl rfl

/-- A text without its sign is still a text. -/
theorem cutPlus_cases (r : Raw) : r.cutPlus.1 = r ∨ ∃ s, r.cutPlus.1 = text s := by
  unfold cutPlus
  split
  · split
    · exact .inr ⟨_, rfl⟩
    · exact .inr ⟨_, rfl⟩
  · exact .inl rfl

/-- A fault of a text is a fault of any datum. -/
theorem ReadFault.of_cut {r s : Raw} (h : s = r ∨ ∃ t, s = text t) {f : Fault}
    (hf : s.ReadFault f) : r.ReadFault f := by
  rcases h with rfl | ⟨t, rfl⟩
  · exact hf
  · exact .inl (hf.resolve_right fun hlarge => not_holdsTooLarge_text t hlarge.2)

theorem readPoint_failsOnly (r : Raw) : FailsOnly r.ReadFault r.readPoint := by
  have hnumbers : FailsOnly r.ReadFault r.cutMark.1.readNumbers :=
    (readNumbers_failsOnly _).mono fun f => ReadFault.of_cut r.cutMark_cases
  exact hnumbers.bind fun xs _ => (pointOf_onlyRejects _ xs).reads r

theorem readPointList_failsOnly (r : Raw) : FailsOnly r.ReadFault r.readPointList := by
  unfold readPointList
  split
  · refine .mapM fun s hs => ?_
    exact (readPoint_failsOnly s).mono fun f => ReadFault.of_isPart (.item hs .refl)
  · refine .mapM fun w _ => ?_
    exact (readPoint_failsOnly _).mono fun f => ReadFault.of_cut (.inr ⟨_, rfl⟩)

theorem readRect_failsOnly (r : Raw) : FailsOnly r.ReadFault r.readRect := by
  refine (readNumbers_failsOnly r).bind fun xs _ => OnlyRejects.reads ?_ r
  split
  · refine (pointOf_onlyRejects _ _).bind fun low _ => (pointOf_onlyRejects _ _).bind fun high _ => ?_
    unfold Rect.of
    split_ifs
    · exact .error rfl
    · exact .error rfl
    · exact .ok _
  · exact .error rfl

theorem readAddDouble_failsOnly (r : Raw) : FailsOnly r.ReadFault r.readAddDouble := by
  have hnumber : FailsOnly r.ReadFault r.cutPlus.1.readNumber :=
    (readNumber_failsOnly _).mono fun f => ReadFault.of_cut r.cutPlus_cases
  exact hnumber.bind fun x _ => OnlyRejects.reads
    ((Double.of_onlyRejects _ x).bind fun _ _ => .ok _) r

theorem readAddPoint_failsOnly (r : Raw) : FailsOnly r.ReadFault r.readAddPoint := by
  have hnumbers : FailsOnly r.ReadFault r.cutPlus.1.readNumbers :=
    (readNumbers_failsOnly _).mono fun f => ReadFault.of_cut r.cutPlus_cases
  refine hnumbers.bind fun xs _ => OnlyRejects.reads ?_ r
  split
  · exact (Double.of_onlyRejects _ _).bind fun _ _ =>
      (Double.of_onlyRejects _ _).bind fun _ _ => .ok _
  · exact .error rfl

theorem viewPortOf_onlyRejects (center : Center) (xs : List Binary64) :
    OnlyRejects (viewPortOf center xs) := by
  have hof : ∀ w h z, OnlyRejects (ViewPort.of w h z center) := by
    intro w h z
    unfold ViewPort.of
    split
    · split_ifs
      · exact .ok _
      · exact .error rfl
    · exact .ok _
  unfold viewPortOf
  split
  · exact (Double.of_onlyRejects _ _).bind fun _ _ => (Double.of_onlyRejects _ _).bind fun _ _ =>
      (Double.of_onlyRejects _ _).bind fun _ _ => hof _ _ _
  · exact (Double.of_onlyRejects _ _).bind fun _ _ => (Double.of_onlyRejects _ _).bind fun _ _ =>
      (Double.of_onlyRejects _ _).bind fun _ _ => hof _ _ _
  · exact .error rfl

theorem readViewPort_onlyRejects (r : Raw) : OnlyRejects r.readViewPort := by
  have hnumbers : ∀ parts : List (List Char),
      OnlyRejects (parts.mapM fun cs => readNumber (text (String.ofList cs))) := fun parts =>
    .mapM fun cs _ => readNumber_text_onlyRejects _
  unfold readViewPort
  split
  · unfold readViewPortParts
    dsimp only
    split
    · exact (hnumbers _).bind fun _ _ => viewPortOf_onlyRejects _ _
    · refine (hnumbers _).bind fun xs _ => ?_
      split
      · exact (pointOf_onlyRejects _ _).bind fun _ _ => viewPortOf_onlyRejects _ _
      · exact viewPortOf_onlyRejects _ _
  · exact .error rfl

/-! #### Members and names -/

theorem memberOf_onlyRejects (e : Enumeration) (s : String) : OnlyRejects (memberOf e s) := by
  unfold memberOf
  split
  · exact .ok _
  · exact .error rfl

theorem readMember_onlyRejects (e : Enumeration) (r : Raw) : OnlyRejects (r.readMember e) := by
  unfold readMember
  split
  · exact memberOf_onlyRejects e _
  · exact .error rfl

theorem readPortPos_onlyRejects (r : Raw) : OnlyRejects r.readPortPos := by
  have hof : ∀ port compass, OnlyRejects (PortPos.of port compass) := by
    intro port compass
    unfold PortPos.of
    dsimp only
    split_ifs
    · exact .error rfl
    · exact .ok _
  unfold readPortPos
  split
  · dsimp only
    split_ifs
    · split
      · exact hof _ _
      · exact hof _ _
    · exact (memberOf_onlyRejects _ _).bind fun _ _ => hof _ _
  · exact .error rfl

theorem readStyleList_onlyRejects (r : Raw) : OnlyRejects r.readStyleList := by
  have hof : ∀ styles, OnlyRejects (styleListOf styles) := by
    intro styles
    unfold styleListOf
    split_ifs
    · exact .error rfl
    · exact .ok _
  have hstyles : ∀ rs : List Raw, OnlyRejects (rs.mapM readStyle) := fun rs =>
    .mapM fun _ _ => memberOf_onlyRejects _ _
  unfold readStyleList
  split
  · exact (hstyles _).bind fun styles _ => hof styles
  · exact (hstyles _).bind fun styles _ => hof styles

theorem readSides_onlyRejects (r : Raw) : OnlyRejects r.readSides := by
  have hside : ∀ c, OnlyRejects (sideOf c) := by
    intro c
    unfold sideOf
    split
    · exact .ok _
    · exact .error rfl
  unfold readSides
  split
  · split_ifs
    · exact .error rfl
    · exact FailsOnly.bind (.mapM fun c _ => hside c) fun _ _ => .ok _
  · exact .error rfl

end Raw

/-! #### Layers -/

theorem checkLayerParts_onlyRejects (name : Raw) (parts : List Raw) :
    OnlyRejects (checkLayerParts name parts) := by
  fun_induction checkLayerParts name parts with
  | case1 => exact .ok _
  | case2 => exact .error rfl
  | case3 => exact .error rfl
  | case4 => exact .error rfl
  | case5 _ _ _ ih => exact ih
  | case6 _ _ _ _ _ ih => exact ih

theorem checkLayerName_onlyRejects (name : Raw) : OnlyRejects (checkLayerName name) := by
  unfold checkLayerName
  split_ifs
  · exact .error rfl
  · split
    · split_ifs
      · exact .error rfl
      · exact .ok _
    · exact checkLayerParts_onlyRejects _ _
    · exact checkLayerParts_onlyRejects _ _
    · exact .error rfl

theorem LayerRange.checkItem_onlyRejects (item : Raw) : OnlyRejects (checkItem item) := by
  unfold checkItem
  split
  · exact checkLayerName_onlyRejects _
  · split
    · exact .forM fun name _ => checkLayerName_onlyRejects name
    · exact .error rfl

/-- Layers are rejected if there are none, or if one of them is. -/
theorem checkLayers_onlyRejects {α : Type} {fault : Fault} {check : Raw → Except Fault Unit}
    (hfault : fault.isRejection = true) (hcheck : ∀ item, OnlyRejects (check item))
    (items : List Raw) (made : α) :
    OnlyRejects (do
      if items.isEmpty then .error fault
      items.forM check
      return made : Except Fault α) := by
  cases items with
  | nil => exact .error hfault
  | cons item items =>
    exact FailsOnly.bind (.forM fun item _ => hcheck item) fun _ _ => .ok _

theorem LayerList.of_onlyRejects (names : List Raw) : OnlyRejects (LayerList.of names) :=
  checkLayers_onlyRejects rfl checkLayerName_onlyRejects names _

theorem Raw.readLayerList_onlyRejects (r : Raw) : OnlyRejects r.readLayerList := by
  unfold readLayerList
  split
  · exact LayerList.of_onlyRejects _
  · exact LayerList.of_onlyRejects _

theorem Raw.readLayerRange_onlyRejects (r : Raw) : OnlyRejects r.readLayerRange :=
  checkLayers_onlyRejects rfl LayerRange.checkItem_onlyRejects _ _

/-! #### Colors -/

theorem channelOfInt_failsOnly (name : String) (n : Int) :
    OnlyValueFaults (channelOfInt name n) := by
  unfold channelOfInt
  split_ifs
  · exact .ok _
  · exact .error rfl

theorem Rgb.ofInts_failsOnly (red green blue : Int) : OnlyValueFaults (Rgb.ofInts red green blue) :=
  (channelOfInt_failsOnly _ _).bind fun _ _ => (channelOfInt_failsOnly _ _).bind fun _ _ =>
    (channelOfInt_failsOnly _ _).bind fun _ _ => .ok _

theorem hsvChannels_failsOnly (hue saturation value : Number) :
    OnlyValueFaults (hsvChannels hue saturation value) := by
  have hcomponent : ∀ name x, OnlyValueFaults (checkComponent name x) := by
    intro name x
    unfold checkComponent
    split_ifs
    · exact .ok _
    · exact .error rfl
  exact (hcomponent _ _).bind fun _ _ => (hcomponent _ _).bind fun _ _ =>
    (hcomponent _ _).bind fun _ _ => .ok _

/-- The channels of a color are found, or a component is at fault. -/
theorem Color.render_failsOnly (c : Color) : OnlyValueFaults c.render := by
  have hplain : ∀ c : PlainColor, OnlyValueFaults c.render := by
    intro c
    cases c with
    | hsv c =>
      exact FailsOnly.map ((hsvChannels_failsOnly _ _ _).bind fun _ _ =>
        Rgb.ofInts_failsOnly _ _ _) _
    | _ => exact .ok _
  cases c with
  | plain c => exact hplain c
  | list l =>
    exact FailsOnly.bind (.mapM fun e _ => (hplain e.1).bind fun _ _ => .ok _) fun _ _ => .ok _

theorem readPlainColor_onlyRejects (cs : List Char) : OnlyRejects (readPlainColor cs) := by
  have hchannels : ∀ channels, OnlyRejects (PlainColor.ofChannels channels) := by
    intro channels
    unfold PlainColor.ofChannels
    split
    · exact (Rgb.ofInts_failsOnly _ _ _).rejects.map _
    · exact (Rgb.ofInts_failsOnly _ _ _).rejects.bind fun _ _ =>
        (channelOfInt_failsOnly _ _).rejects.bind fun _ _ => .ok _
    · exact .error rfl
  unfold readPlainColor
  split
  · unfold readHexColor
    split_ifs
    · split
      · exact hchannels _
      · exact .error rfl
    · exact .error rfl
  · split_ifs
    · unfold readHsv
      split
      · exact FailsOnly.map ((hsvChannels_failsOnly _ _ _).rejects.bind fun _ _ => .ok _) _
      · exact .error rfl
    · refine FailsOnly.map ?_ _
      unfold ColorName.of
      split_ifs
      · exact .ok _
      · exact .error rfl

theorem ColorList.add_onlyRejects (l : ColorList) (color : PlainColor)
    (weight : Option Binary64) : OnlyRejects (l.add color weight).1 := by
  unfold add
  split
  · exact .ok _
  · split
    · exact .error rfl
    · split
      · exact .error rfl
      · exact .ok _

theorem readColor_onlyRejects (r : Raw) : OnlyRejects (readColor r) := by
  have hpart : ∀ (l : ColorList) (part : List Char), OnlyRejects (l.addText part) := by
    intro l part
    unfold ColorList.addText
    split
    · exact (readPlainColor_onlyRejects _).bind fun _ _ => .leaving (l.add_onlyRejects _ _)
    · refine (readPlainColor_onlyRejects _).bind fun _ _ => ?_
      split
      · exact .leaving (l.add_onlyRejects _ _)
      · exact .error rfl
  unfold readColor
  split
  · unfold readColorText
    split_ifs
    · exact FailsOnly.map (.foldlM (fun l part _ => hpart l part) _) _
    · exact (readPlainColor_onlyRejects _).map _
  · exact .error rfl

end DotWriter
