import DotWriter.Label.Build
import DotWriter.Proofs.Attribute.Faults
import DotWriter.Proofs.Color.Construction
import DotWriter.Proofs.Label.Construction
import DotWriter.Value.Arithmetic

/-!
# Which values are written

Values are checked where they are made, and a value that was made can be written, in the same way
each time.  Names of layers are the exception: the check of a name lets pass a list of names, and a
range of layers may be given by fewer than two names.  A tag that changes the font of a text takes
any object, so a label is written if what it holds can be written.

* `Value.Constructed` : the values that can be made;
* `Value.IsWritable` : layers are named by texts, ranges have two ends, and what a label holds can
  be written;
* `Value.RendersAlike` : the value is written any number of times, and always with the same text;
* `Constructed.rendersAlike_iff` : **the values that are written are the writable ones**;
* `constructed_renders` : the same in terms of what the values are made from.
-/

namespace DotWriter

open Outcome

/-- A value is a datum, or an item of it, or an item of one of its items. -/
inductive Datum.Holds (v : Value) : Datum → Prop
  | value : Holds v (.value v)
  | item {d : Datum} {items : List Datum} (hd : d ∈ items) (h : Holds v d) : Holds v (.list items)
  | key {k d : Datum} {entries : List (Datum × Datum)} (hd : (k, d) ∈ entries) (h : Holds v k) :
      Holds v (.map entries)
  | entry {k d : Datum} {entries : List (Datum × Datum)} (hd : (k, d) ∈ entries) (h : Holds v d) :
      Holds v (.map entries)

theorem Datum.items?_holds {d : Datum} {items : List Datum} (h : d.items? = some items) {v : Value}
    (hv : .value v ∈ items) : d.Holds v := by
  unfold items? at h
  split at h
  · cases h
    obtain ⟨r, -, hr⟩ := List.mem_map.1 hv
    cases hr
  · cases h
    exact .item hv .value
  · cases h

namespace Value

/-- The values that can be made: from arguments that hold such values, by appending to a list, by
arithmetic, as a member of an enumeration, a set of borders or a label, and by reading a datum for
an attribute. -/
inductive Constructed : Value → Prop
  | of {kind : String} {args : List Datum} {v : Value}
      (hargs : ∀ d ∈ args, ∀ w, d.Holds w → Constructed w) (h : Value.of kind args = .ok v) :
      Constructed v
  | append {v : Value} {args : List Datum} (hv : Constructed v)
      (hargs : ∀ d ∈ args, ∀ w, d.Holds w → Constructed w) : Constructed (v.append args).2
  | calculate {op : Operation} {v w u : Value} (h : v.calculate op w = .ok u) : Constructed u
  | negate {v w : Value} (h : v.negate = .ok w) : Constructed w
  | same {v w : Value} (h : v.same = .ok w) : Constructed w
  | member {e : Enumeration} {d : Datum} {v : Value} (h : memberOf e d = .ok v) : Constructed v
  | sides (s : Sides) : Constructed (.sides s)
  | label {args : List Datum} {v : Value} (h : ofLabel args = .ok v) : Constructed v
  | read {attr : AttributeId} {r : Raw} {v : Value} (h : coerce attr r = .ok v) : Constructed v

/-- The value is written any number of times, and always with the same text. -/
def RendersAlike (v : Value) : Prop :=
  ∃ text, ∀ n, (List.replicate n v).mapM render = .ok (List.replicate n text)

theorem rendersAlike_iff {v : Value} : v.RendersAlike ↔ ∃ text, v.render = .ok text := by
  constructor
  · rintro ⟨text, h⟩
    obtain ⟨t, -, ht⟩ := exists_mem_of_mapM_ok (h 1) List.mem_cons_self
    exact ⟨t, ht⟩
  · rintro ⟨text, h⟩
    refine ⟨text, fun n => ?_⟩
    rw [mapM_eq_ok, List.forall₂_iff_get]
    simp [h]

/-! ### Colors -/

/-- The components of the colors in a value were checked. -/
def IsChecked : Value → Prop
  | color c => c.IsChecked
  | _ => True

theorem of_isChecked {kind : String} {args : List Datum}
    (hargs : ∀ d ∈ args, ∀ w, d.Holds w → w.IsChecked) : ReturnsOnly IsChecked (of kind args) := by
  unfold Value.of
  split
  -- values without colors
  · exact .bind fun _ _ => .bind fun _ _ => .ok trivial
  · exact .bind fun _ _ => .ok trivial
  · exact .bind fun _ _ => .bind fun _ _ => .ok trivial
  · exact .bind fun _ _ => .bind fun _ _ => .ok trivial
  · exact .bind fun _ _ => .bind fun _ _ => .ok trivial
  · exact .bind fun _ _ => .bind fun _ _ => .ok trivial
  · exact .bind fun _ _ => .ok trivial
  · exact .bind fun _ _ => .bind fun _ _ => .ok trivial
  · exact .bind fun _ _ => .bind fun _ _ => .bind fun _ _ => .bind fun _ _ => .ok trivial
  · exact .bind fun _ _ => .bind fun _ _ => .ok trivial
  · exact .bind fun _ _ => .bind fun _ _ => .ok trivial
  · exact .bind fun _ _ => .bind fun _ _ => .bind fun _ _ => .ok trivial
  · exact .bind fun _ _ => .ok trivial
  · exact .bind fun _ _ => .bind fun _ _ => .bind fun _ _ => .ok trivial
  · exact .bind fun _ _ => .bind fun _ _ => .bind fun _ _ => .ok trivial
  · exact .bind fun _ _ => .ok trivial
  · refine .bind fun _ _ => .bind fun _ _ => .bind fun _ _ => ?_
    split
    · exact .bind fun _ _ => .ok trivial
    · exact .ok trivial
  -- colors by channels
  · exact .bind fun _ _ => .bind fun _ _ => .ok trivial
  · exact .bind fun _ _ => .bind fun _ _ => .bind fun _ _ => .ok trivial
  · exact .bind fun _ _ => .bind fun _ _ => .bind fun _ _ => .ok trivial
  -- by hue, saturation and value
  · refine .bind fun _ _ => .bind fun c hc => .ok ?_
    obtain ⟨hue, -, hc⟩ := bind_eq_ok.1 hc
    obtain ⟨saturation, -, hc⟩ := bind_eq_ok.1 hc
    obtain ⟨value, -, hc⟩ := bind_eq_ok.1 hc
    exact ⟨hue, saturation, value, hc⟩
  -- by name
  · exact .bind fun _ _ => .bind fun _ _ => .bind fun _ _ => .ok trivial
  -- lists
  · refine .bind fun entries hentries => .bind fun l hl => .ok ?_
    refine ReturnsOnly.foldlM (fun l hl entry hentry => .leaving ?_) ColorList.empty_isChecked l hl
    refine ColorList.addArguments_isChecked hl fun c hc => ?_
    obtain ⟨d, hd, hitems⟩ := exists_of_mem_mapM_ok hentries hentry
    unfold Datum.listItems at hitems
    split at hitems
    · rename_i items hsome
      cases hitems
      exact hargs d hd _ (Datum.items?_holds hsome hc)
    · cases hitems
  · exact .error _

theorem append_isChecked {v : Value} {args : List Datum} (hv : v.IsChecked)
    (hargs : ∀ d ∈ args, ∀ w, d.Holds w → w.IsChecked) : (v.append args).2.IsChecked := by
  unfold append
  split
  · split <;> trivial
  · split <;> trivial
  · exact ColorList.addArguments_isChecked hv fun c hc => hargs _ hc _ .value
  · exact hv

/-- Arithmetic makes numbers. -/
theorem calculate_isChecked (op : Operation) (v w : Value) :
    ReturnsOnly IsChecked (v.calculate op w) := by
  unfold calculate
  split
  · exact .bind fun _ _ => .bind fun _ _ => .ok trivial
  · exact .bind fun _ _ => .bind fun _ _ => .ok trivial
  · exact .error _

end Value

theorem Kind.read?_isChecked {k : Kind} {r : Raw} {v : Value}
    (h : k.read? r = some (.ok v)) : v.IsChecked := by
  cases k with
  | label => cases h
  | color =>
    obtain ⟨c, hc, rfl⟩ := map_eq_ok.1 (Option.some.inj h)
    exact readColor_isChecked r c hc
  | _ =>
    obtain ⟨_, -, rfl⟩ := map_eq_ok.1 (Option.some.inj h)
    trivial

namespace Value

theorem Constructed.isChecked {v : Value} (h : v.Constructed) : v.IsChecked := by
  induction h with
  | of _ h ih => exact of_isChecked ih _ h
  | append _ _ ihv ih => exact append_isChecked ihv ih
  | calculate h => exact calculate_isChecked _ _ _ _ h
  | @negate v w h =>
    unfold Value.negate at h
    split at h
    · obtain ⟨_, -, rfl⟩ := map_eq_ok.1 h
      trivial
    · cases h
      trivial
    · cases h
  | @same v w h =>
    unfold Value.same at h
    split at h
    · cases h
      trivial
    · cases h
      trivial
    · cases h
  | @member e d v h =>
    unfold memberOf at h
    split at h
    · split at h
      · cases h
        trivial
      · cases h
    · cases h
  | sides => trivial
  | @label args v h =>
    unfold ofLabel at h
    split at h
    · obtain ⟨_, -, rfl⟩ := map_eq_ok.1 h
      trivial
    · cases h
  | read h =>
    obtain ⟨k, -, hread⟩ := exists_kind_of_readFirst h
    exact Kind.read?_isChecked hread

end Value

/-! ### Layers -/

theorem LayerList.exists_render_iff {l : LayerList} :
    (∃ text, l.render = .ok text) ↔ ∀ s ∈ l.names, ∃ t, s = .text t := by
  have hname : ∀ s, (∃ t, nameText s = .ok t) ↔ ∃ t, s = .text t := by
    intro s
    cases s <;> simp [nameText]
  simp only [← hname, ← exists_mapM_ok_iff]
  exact exists_bind_pure_iff

/-- An item of a range of layers is a text or has two ends. -/
def LayerRange.HasEnds : Raw → Prop
  | .text _ => True
  | .list (_ :: _ :: _) => True
  | _ => False

theorem LayerRange.exists_render_iff {l : LayerRange} :
    (∃ text, l.render = .ok text) ↔ ∀ item ∈ l.items, HasEnds item := by
  have hitem : ∀ item, (∃ t, renderItem item = .ok t) ↔ HasEnds item := by
    intro item
    match item with
    | .text _ | .list (_ :: _ :: _) => simp [renderItem, HasEnds]
    | .list [] | .list [_] => simp [renderItem, HasEnds]
    | .null | .bool _ | .int _ | .float _ | .map _ => simp [renderItem, HasEnds]
  simp only [← hitem, ← exists_mapM_ok_iff]
  exact exists_bind_pure_iff

namespace Value

/-- Layers are named by texts, ranges of layers have two ends, and what a label holds can be
written. -/
def IsWritable : Value → Prop
  | layerList l => ∀ s ∈ l.names, ∃ t, s = .text t
  | layerRange l => ∀ item ∈ l.items, LayerRange.HasEnds item
  | label n => n.isWritable = true
  | _ => True

/-- **The values that are written are the writable ones.** -/
theorem Constructed.rendersAlike_iff {v : Value} (hv : v.Constructed) :
    v.RendersAlike ↔ v.IsWritable := by
  rw [Value.rendersAlike_iff]
  have hchecked := hv.isChecked
  cases v with
  | layerList l => exact l.exists_render_iff
  | layerRange l => exact l.exists_render_iff
  | color c => exact ⟨fun _ => trivial, fun _ => Color.exists_render hchecked⟩
  | label n => exact exists_bind_pure_iff.trans n.exists_render_iff
  | _ => exact ⟨fun _ => trivial, fun _ => ⟨_, rfl⟩⟩

end Value

/-! ### What was read -/

/-- Ranges that are read have two ends. -/
theorem LayerRange.hasEnds_of_read {r : Raw} {l : LayerRange} (h : r.readLayerRange = .ok l) :
    ∀ item ∈ l.items, HasEnds item := by
  unfold Raw.readLayerRange at h
  obtain ⟨-, -, rfl⟩ := of_eq_ok.1 h
  intro item hitem
  obtain ⟨given, -, rfl⟩ := List.mem_map.1 hitem
  unfold Raw.layerItem
  split
  · trivial
  · trivial

theorem LayerList.texts_of_read_iff {r : Raw} {l : LayerList} (h : r.readLayerList = .ok l) :
    (∀ s ∈ l.names, ∃ t, s = .text t) ↔ ¬ r.HasNestedItem := by
  rw [← not_iff_not, not_not]
  push Not
  refine ⟨names_of_read h, ?_⟩
  rintro ⟨items, rfl, hnested⟩
  obtain ⟨-, -, rfl⟩ := of_eq_ok.1 h
  exact hnested

/-- What was read is writable, but for layers whose names are no texts. -/
theorem Value.isWritable_of_coerce_iff {attr : AttributeId} {r : Raw} {v : Value}
    (h : coerce attr r = .ok v) :
    v.IsWritable ↔ ¬ (attr = .dot .layers ∧ r.HasNestedItem) := by
  obtain ⟨k, hk, hread⟩ := exists_kind_of_readFirst h
  by_cases hlayers : k = .layerList
  · subst hlayers
    obtain ⟨l, hl, rfl⟩ := map_eq_ok.1 (Option.some.inj hread)
    rw [AttributeId.eq_layers hk]
    simp only [true_and]
    exact LayerList.texts_of_read_iff hl
  · have hattr : ¬ (attr = .dot .layers ∧ r.HasNestedItem) := by
      rintro ⟨rfl, -⟩
      exact hlayers (List.mem_singleton.1 hk)
    refine ⟨fun _ => hattr, fun _ => ?_⟩
    cases k with
    | label => cases hread
    | layerList => exact absurd rfl hlayers
    | layerRange =>
      obtain ⟨l, hl, rfl⟩ := map_eq_ok.1 (Option.some.inj hread)
      exact LayerRange.hasEnds_of_read hl
    | _ =>
      obtain ⟨_, -, rfl⟩ := map_eq_ok.1 (Option.some.inj hread)
      trivial

/-! ### What was given -/

/-- A value that is made from the parts of a sequence. -/
theorem Value.of_parts {α : Type} {make : List Raw → Except Fault α} {toValue : α → Value} {r : Raw}
    {parts : List Raw} {v : Value} (hparts : parts? r = some parts)
    (h : (do return toValue (← make (← Datum.rawParts (.raw r)))) = .ok v) :
    ∃ l, make parts = .ok l ∧ toValue l = v := by
  rw [Datum.rawParts, hparts] at h
  exact map_eq_ok.1 h

theorem Value.of_layerList {r : Raw} {names : List Raw} {v : Value} (hnames : parts? r = some names)
    (h : Value.of "LayerList" [.raw r] = .ok v) : v = .layerList ⟨names⟩ := by
  obtain ⟨_, -, h⟩ := bind_eq_ok.1 h
  obtain ⟨l, hl, rfl⟩ := Value.of_parts hnames h
  obtain ⟨-, -, rfl⟩ := LayerList.of_eq_ok.1 hl
  rfl

theorem Value.of_layerRange {r : Raw} {items : List Raw} {v : Value}
    (hitems : parts? r = some items) (h : Value.of "LayerRange" [.raw r] = .ok v) :
    v = .layerRange ⟨items⟩ := by
  obtain ⟨_, -, h⟩ := bind_eq_ok.1 h
  obtain ⟨l, hl, rfl⟩ := Value.of_parts hitems h
  obtain ⟨-, -, rfl⟩ := LayerRange.of_eq_ok.1 hl
  rfl

/-- A range of layers is given by the name of a layer or by a list of names. -/
def LayerRange.IsNamed (item : Raw) : Prop :=
  (∃ s, item = .text s) ∨ ∃ texts : List String, item = .list (texts.map .text)

theorem LayerRange.hasEnds_iff_of_isNamed {items : List Raw} (h : ∀ item ∈ items, IsNamed item) :
    (∀ item ∈ items, HasEnds item) ↔ ∀ names, .list names ∈ items → 2 ≤ names.length := by
  constructor
  · intro hends names hmem
    match names, hends _ hmem with
    | first :: last :: rest, _ => simp
  · intro hlength item hitem
    rcases h item hitem with ⟨s, rfl⟩ | ⟨texts, rfl⟩
    · trivial
    · match texts, hlength _ hitem with
      | first :: last :: rest, _ => trivial

/-- **Values that were made are written**, any number of times and always with the same text.  A
label is if it is made of parts of labels, and in general exactly if what it holds can be written.
Layers are if they are given by texts; a range that is given as a list needs two names; and of what
is read for an attribute, only lists of layers with an item that is no text are not written. -/
theorem constructed_renders (v : Value) :
    (v.Constructed → (∀ l, v ≠ .layerList l) → (∀ l, v ≠ .layerRange l) →
      (v.RendersAlike ↔ ∀ n, v = .label n → n.isWritable = true)) ∧
    (∀ d : Datum, (∀ n, d = .node n → n.Constructed) → Value.ofLabel [d] = .ok v →
      v.RendersAlike) ∧
    (∀ r (texts : List String), parts? r = some (texts.map .text) →
      Value.of "LayerList" [.raw r] = .ok v → v.RendersAlike) ∧
    (∀ r items, parts? r = some items → (∀ item ∈ items, LayerRange.IsNamed item) →
      Value.of "LayerRange" [.raw r] = .ok v →
      (v.RendersAlike ↔ ∀ names, .list names ∈ items → 2 ≤ names.length)) ∧
    ∀ attr r, coerce attr r = .ok v →
      (v.RendersAlike ↔ ¬ (attr = .dot .layers ∧ r.HasNestedItem)) := by
  have hdata : ∀ {r : Raw} {d : Datum} {w : Value}, d ∈ [Datum.raw r] → ¬ d.Holds w := by
    intro r d w hd hw
    rw [List.mem_singleton.1 hd] at hw
    cases hw
  refine ⟨fun hv hlist hrange => ?_, fun d hd h => ?_, fun r texts htexts h => ?_,
    fun r items hitems hnamed h => ?_, fun attr r h => ?_⟩
  · rw [hv.rendersAlike_iff]
    cases v with
    | layerList l => exact absurd rfl (hlist l)
    | layerRange l => exact absurd rfl (hrange l)
    | label n =>
      constructor
      · rintro hn _ ⟨⟩
        exact hn
      · exact fun h => h n rfl
    | _ => exact ⟨fun _ => nofun, fun _ => trivial⟩
  · rw [(Value.Constructed.label h).rendersAlike_iff]
    obtain ⟨n, hn, rfl⟩ := map_eq_ok.1 h
    rcases (labelContent_eq_ok hn).2 with hnode | ⟨s, rfl⟩
    · exact (hd n hnode).typed.isWritable
    · rfl
  · have hv : v.Constructed := .of (fun d hd w hw => absurd hw (hdata hd)) h
    rw [hv.rendersAlike_iff, Value.of_layerList htexts h]
    intro s hs
    obtain ⟨t, -, rfl⟩ := List.mem_map.1 hs
    exact ⟨t, rfl⟩
  · have hv : v.Constructed := .of (fun d hd w hw => absurd hw (hdata hd)) h
    rw [hv.rendersAlike_iff, Value.of_layerRange hitems h]
    exact LayerRange.hasEnds_iff_of_isNamed hnamed
  · rw [(Value.Constructed.read h).rendersAlike_iff, Value.isWritable_of_coerce_iff h]

/-- A color, a label, two names of layers, a layer with a range, and layers that were read. -/
theorem sampleValues_rendered :
    (∃ v, Value.of "HSV" [.raw (.int 1), .raw (.int 1), .raw (.int 1)] = .ok v ∧ v.RendersAlike) ∧
    (∃ v, Value.ofLabel [.raw (.text "a")] = .ok v ∧ v.RendersAlike) ∧
    (∃ v, Value.of "LayerList" [.raw (.list [.text "a", .text "b"])] = .ok v ∧ v.RendersAlike) ∧
    (∃ v, Value.of "LayerRange" [.raw (.list [.text "a", .list [.text "b", .text "c"]])] = .ok v ∧
      v.RendersAlike) ∧
    ∃ v, coerce (.dot .layers) (.list [.text "a", .text "b"]) = .ok v ∧ v.RendersAlike := by
  have hcolor : ∀ d ∈ [Datum.raw (.int 1), .raw (.int 1), .raw (.int 1)], ∀ w : Value, d.Holds w →
      w.Constructed := by
    intro d hd w hw
    simp only [List.mem_cons, List.not_mem_nil, or_false, or_self] at hd
    rw [hd] at hw
    cases hw
  obtain ⟨hvalue, -⟩ := constructed_renders (.color (.plain (.hsv ⟨.float (.finite Double.zero),
    .int 1, .int 1⟩)))
  obtain ⟨-, hlabel, -⟩ := constructed_renders (.label (.text [.chars "a"]))
  obtain ⟨-, -, hlist, -, hread⟩ := constructed_renders (.layerList ⟨[.text "a", .text "b"]⟩)
  obtain ⟨-, -, -, hrange, -⟩ := constructed_renders
    (.layerRange ⟨[.text "a", .list [.text "b", .text "c"]]⟩)
  refine ⟨⟨_, rfl, (hvalue (@Value.Constructed.of "HSV" _ _ hcolor rfl) nofun nofun).2 nofun⟩,
    ⟨_, rfl, hlabel (.raw (.text "a")) nofun rfl⟩,
    ⟨_, rfl, hlist (.list [.text "a", .text "b"]) ["a", "b"] rfl rfl⟩,
    ⟨_, rfl, (hrange (.list [.text "a", .list [.text "b", .text "c"]]) _ rfl ?_ rfl).2 ?_⟩,
    ⟨_, rfl, (hread (.dot .layers) (.list [.text "a", .text "b"]) rfl).2 ?_⟩⟩
  · intro item hitem
    rcases List.mem_cons.1 hitem with rfl | hitem
    · exact .inl ⟨"a", rfl⟩
    · rw [List.mem_singleton.1 hitem]
      exact .inr ⟨["b", "c"], rfl⟩
  · simp
  · rintro ⟨-, items, hitems, s, hs, htext⟩
    cases hitems
    simp only [List.mem_cons, List.not_mem_nil, or_false] at hs
    rcases hs with rfl | rfl
    · exact htext "a" rfl
    · exact htext "b" rfl

/-- A list in place of a name is read as a layer but not written, and neither is a range of one
layer. -/
theorem nestedLayers_not_rendered :
    (∃ v, coerce (.dot .layers) (.list [.list [.text "a"]]) = .ok v ∧
      v.render = .error .wrongOperand) ∧
    ∃ v, Value.of "LayerRange" [.raw (.list [.list [.text "a"]])] = .ok v ∧
      v.render = .error .missingIndex :=
  ⟨⟨_, rfl, rfl⟩, ⟨_, rfl, rfl⟩⟩

end DotWriter
