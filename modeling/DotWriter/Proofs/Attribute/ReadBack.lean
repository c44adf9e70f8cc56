import DotWriter.Proofs.Attribute.Coercion
import DotWriter.Proofs.Color.Hsv
import DotWriter.Proofs.Color.Reading
import DotWriter.Proofs.Document.Tree
import DotWriter.Proofs.Value.Names

/-!
# Reading values back

Attributes of several kinds give a text to the readers of these kinds in turn, and the first that
takes the text decides.  So a value may come back as a value of another kind; this does no harm as
long as an attribute keeps the same text for both.

* `Value.IsReadable` : values that can be given as texts;
* `Kind.Keeps`, `Kind.Rejects` : what a reader does with a text;
* `Kind.earlier` : the kinds that some attribute tries before a kind;
* `Value.IsReadable.coerce_render` : **the text of a value is read back as a value that the attribute
  accepts and keeps the same text for**.
-/

namespace DotWriter

/-- Values that can be given as texts.  A port without a compass point must not hold a colon, and
the node in the centre of a view port no comma. -/
inductive Value.IsReadable : Value → Prop
  | bool (given : Raw) : IsReadable (.bool given)
  | int (n : Integer) : IsReadable (.int n)
  | double (x : Double) : IsReadable (.double x)
  | member {e : Enumeration} (m : Member e) : IsReadable (.member e m)
  | styleList {styles : List (Member .style)} (hne : styles ≠ []) : IsReadable (.styleList styles)
  | sides {s : Sides} (hne : s ≠ .none) : IsReadable (.sides s)
  | point (p : Point) : IsReadable (.point p)
  | pointList (ps : List Point) : IsReadable (.pointList ps)
  | rect {low high : Point} {r : Rect} (hmade : Rect.of low high = .ok r) : IsReadable (.rect r)
  | addDouble (a : AddDouble) : IsReadable (.addDouble a)
  | addPoint (a : AddPoint) : IsReadable (.addPoint a)
  | layerList {names : List String} {l : LayerList}
      (hmade : LayerList.of (names.map .text) = .ok l) : IsReadable (.layerList l)
  | layerRange {items : List Raw} {l : LayerRange} (hmade : LayerRange.of items = .ok l)
      (hitems : ∀ item ∈ items, LayerRange.IsItem item) : IsReadable (.layerRange l)
  | portPos {port : Option String} {compass : Option (Member .compassPoint)} {p : PortPos}
      (hmade : PortPos.of port compass = .ok p)
      (hport : compass = none → ∀ s ∈ port, ':' ∉ s.toList) : IsReadable (.portPos p)
  | viewPort {width height zoom : Double} {center : Center} {v : ViewPort}
      (hmade : ViewPort.of width height zoom center = .ok v)
      (hnode : ∀ name, center = .node name → ',' ∉ name.toList) : IsReadable (.viewPort v)
  | rgb (c : Rgb) : IsReadable (.color (.plain (.rgb c)))
  | rgba (c : Rgb) (alpha : UInt8) : IsReadable (.color (.plain (.rgba c alpha)))
  | hsv {hue saturation value : Number} {c : Hsv} (hmade : Hsv.of hue saturation value = .ok c) :
      IsReadable (.color (.plain (.hsv c)))
  | named (c : ColorName) : IsReadable (.color (.plain (.named c)))

namespace Kind

variable {attr : AttributeId} {text : String}

/-- The reader takes a text as a value that is written with it. -/
def TakesBack (k : Kind) (text : String) : Prop :=
  ∃ w, k.read? (.text text) = some (.ok w) ∧ w.hasDelimiters = false ∧ w.render = .ok text

/-- The reader takes a text, and the attribute keeps the text between quotes. -/
def Keeps (k : Kind) (attr : AttributeId) (text : String) : Prop :=
  ∃ w, k.read? (.text text) = some (.ok w) ∧ storedText attr w = .ok ("\"" ++ text ++ "\"")

/-- The reader leaves a text to the next one. -/
def Rejects (k : Kind) (text : String) : Prop :=
  ∃ f, k.read? (.text text) = some (.error f) ∧ f.isRejection = true

theorem TakesBack.keeps {k : Kind} (h : k.TakesBack text) : k.Keeps attr text := by
  obtain ⟨w, hread, hw, hrender⟩ := h
  refine ⟨w, hread, ?_⟩
  rw [Value.storedText_eq hw, hrender]
  rfl

/-- The first reader that does not reject the text decides. -/
theorem readFirst_keeps {before after : List Kind} {k : Kind} {f : Fault}
    (hbefore : ∀ e ∈ before, e.Keeps attr text ∨ e.Rejects text) (hk : k.Keeps attr text) :
    ∃ w, readFirst f (.text text) (before ++ k :: after) = .ok w ∧
      storedText attr w = .ok ("\"" ++ text ++ "\"") := by
  have hkeep : ∀ {e : Kind} {es : List Kind}, e.Keeps attr text →
      ∃ w, readFirst f (.text text) (e :: es) = .ok w ∧
        storedText attr w = .ok ("\"" ++ text ++ "\"") := by
    rintro e es ⟨w, hread, hstored⟩
    exact ⟨w, by rw [readFirst, hread], hstored⟩
  induction before with
  | nil => exact hkeep hk
  | cons e before ih =>
    obtain ⟨he, hbefore⟩ := List.forall_mem_cons.1 hbefore
    rcases he with he | ⟨g, hread, hg⟩
    · exact hkeep he
    · obtain ⟨w, hw, hstored⟩ := ih hbefore
      refine ⟨w, ?_, hstored⟩
      rw [List.cons_append, readFirst, hread]
      simp only [hg, if_true, hw]

/-! ### One kind -/

theorem TakesBack.of_read {α : Type} {k : Kind} {read : Raw → Except Fault α} {a : α}
    (make : α → Value) (hk : ∀ r, k.read? r = some (make <$> read r))
    (hread : read (.text text) = .ok a) (hmake : (make a).hasDelimiters = false)
    (hrender : (make a).render = .ok text) : k.TakesBack text := by
  refine ⟨make a, ?_, hmake, hrender⟩
  rw [hk, hread]
  rfl

theorem takesBack_color {c : PlainColor} {text : String} (h : c.render = .ok text) :
    color.TakesBack text := by
  obtain ⟨d, hread, hrender⟩ := PlainColor.readColor_render h
  exact .of_read .color (fun _ => rfl) hread rfl hrender

/-- **The text of a value is read by the reader of its kind.** -/
theorem takesBack_render {v : Value} {k : Kind} (hv : v.IsReadable) (hk : of? v = some k) :
    ∃ text, v.render = .ok text ∧ k.TakesBack text := by
  cases hv <;> cases hk
  case bool given =>
    exact ⟨_, rfl, .of_read (fun b => .bool (.bool b)) (fun _ => rfl)
      (readBool_renderBool given.isTruthy) rfl rfl⟩
  case int n =>
    exact ⟨_, rfl, .of_read .int (fun _ => rfl) n.readInteger_toString rfl rfl⟩
  case double x =>
    refine ⟨_, rfl, .of_read .double (fun _ => rfl) x.readDouble_fixed rfl ?_⟩
    rw [Value.render, x.fixed_reread]
  case member m =>
    exact ⟨_, rfl, .of_read (.member _) (fun _ => rfl) m.readMember_text rfl rfl⟩
  case styleList hne =>
    exact ⟨_, rfl, .of_read .styleList (fun _ => rfl) (readStyleList_render hne) rfl rfl⟩
  case sides hne =>
    exact ⟨_, rfl, .of_read .sides (fun _ => rfl) (Sides.readSides_text hne) rfl rfl⟩
  case point p =>
    refine ⟨_, rfl, .of_read .point (fun _ => rfl) p.readPoint_render rfl ?_⟩
    rw [Value.render, p.render_reread]
  case pointList ps =>
    refine ⟨_, rfl, .of_read .pointList (fun _ => rfl) (Point.readPointList_render ps) rfl ?_⟩
    simp [Value.render, Function.comp_def]
  case rect hmade =>
    refine ⟨_, rfl, .of_read .rect (fun _ => rfl) (Rect.readRect_render hmade) rfl ?_⟩
    rw [Value.render, Rect.render_reread]
  case addDouble a =>
    refine ⟨_, rfl, .of_read .addDouble (fun _ => rfl) a.readAddDouble_render rfl ?_⟩
    rw [Value.render, a.render_reread]
  case addPoint a =>
    refine ⟨_, rfl, .of_read .addPoint (fun _ => rfl) a.readAddPoint_render rfl ?_⟩
    rw [Value.render, a.render_reread]
  case layerList hmade =>
    obtain ⟨text, hrender, hread⟩ := LayerList.readLayerList_render hmade
    exact ⟨text, hrender, .of_read .layerList (fun _ => rfl) hread rfl hrender⟩
  case layerRange hmade hitems =>
    obtain ⟨text, hrender, hread⟩ := LayerRange.readLayerRange_render hmade hitems
    exact ⟨text, hrender, .of_read .layerRange (fun _ => rfl) hread rfl hrender⟩
  case portPos hmade hport =>
    obtain ⟨q, hread, hrender⟩ := PortPos.readPortPos_render hmade hport
    exact ⟨_, rfl, .of_read .portPos (fun _ => rfl) hread rfl (congrArg Except.ok hrender)⟩
  case viewPort hmade hnode =>
    obtain ⟨w, hread, hrender⟩ := ViewPort.readViewPort_render hmade hnode
    exact ⟨_, rfl, .of_read .viewPort (fun _ => rfl) hread rfl (congrArg Except.ok hrender)⟩
  case rgb c => exact ⟨c.render, rfl, takesBack_color (c := .rgb c) rfl⟩
  case rgba c alpha => exact ⟨_, rfl, takesBack_color (c := .rgba c alpha) rfl⟩
  case named c => exact ⟨c.name, rfl, takesBack_color (c := .named c) rfl⟩
  case hsv c hmade =>
    obtain ⟨color, hcolor⟩ := Hsv.exists_rgb hmade
    have hrender : PlainColor.render (.hsv c) = .ok color.render := by
      rw [PlainColor.render, hcolor]
      rfl
    exact ⟨color.render, hrender, takesBack_color hrender⟩

/-! ### Earlier kinds -/

/-- The kinds that some attribute tries before a kind. -/
def earlier : Kind → List Kind
  | bool => [string, double]
  | int => [bool]
  | double => [int]
  | string => [bool, double, member .startType]
  | label => [escString]
  | point => [double]
  | pointList => [point]
  | addPoint => [addDouble]
  | styleList => [member .style]
  | _ => []

theorem kinds_earlier (attr : AttributeId) :
    attr.spec.kinds.Pairwise fun e k => e ∈ k.earlier := by
  cases attr with
  | dot a =>
    have hall : ∀ a ∈ DotAttribute.all, a.spec.kinds.Pairwise fun e k => e ∈ k.earlier := by
      decide +kernel
    exact hall a a.mem_all
  | html a => cases a <;> decide

/-- A reader whose fault is a rejection. -/
theorem Rejects.of_read {α : Type} {k : Kind} {read : Raw → Except Fault α} {f : Fault}
    (make : α → Value) (hk : ∀ r, k.read? r = some (make <$> read r))
    (hread : read (.text text) = .error f) (hf : f.isRejection = true) : k.Rejects text := by
  refine ⟨f, ?_, hf⟩
  rw [hk, hread]
  rfl

/-- A truth value is kept as a string, too. -/
theorem string_keeps_bool (b : Bool) : string.Keeps attr (Value.renderBool b) := by
  refine ⟨.string (Value.renderBool b), rfl, ?_⟩
  cases attr <;> cases b <;> rfl

theorem double_rejects {s : String} (h : Raw.readNumber (.text s) = .error .unreadableText) :
    double.Rejects s := by
  refine .of_read .double (fun _ => rfl) (f := .unreadableText) ?_ rfl
  rw [Raw.readDouble, h]
  rfl

theorem double_rejects_bool (b : Bool) : double.Rejects (Value.renderBool b) := by
  cases b with
  | true => exact double_rejects (readNumber_of_mem (c := 'r') rfl (by decide +kernel) (by decide))
  | false => exact double_rejects (readNumber_of_mem (c := 's') rfl (by decide +kernel) (by decide))

theorem double_rejects_point (p : Point) : double.Rejects p.render :=
  double_rejects (readNumber_of_mem (c := ',') rfl (by decide +kernel) p.comma_mem_render)

theorem bool_rejects_int (n : Integer) : bool.Rejects (toString n.val) :=
  .of_read (fun b => .bool (.bool b)) (fun _ => rfl) n.readBool_toString rfl

theorem int_rejects_double (x : Double) : int.Rejects x.fixed :=
  .of_read .int (fun _ => rfl) x.readInteger_fixed rfl

theorem addDouble_rejects_addPoint (a : AddPoint) : addDouble.Rejects a.render := by
  have hcomma : ',' ∈ (numbersText [a.x, a.y]).toList := by simp [numbersText]
  refine .of_read .addDouble (fun _ => rfl) (f := .unreadableText) ?_ rfl
  rw [Raw.readAddDouble, a.cutPlus_render]
  simp only [readNumber_of_mem (c := ',') rfl (by decide +kernel) hcomma]
  rfl

/-- One point is read as itself, and any other number of points is rejected. -/
theorem point_keeps_or_rejects (ps : List Point) :
    point.Keeps attr (String.intercalate " " (ps.map Point.render)) ∨
      point.Rejects (String.intercalate " " (ps.map Point.render)) := by
  match ps with
  | [] => exact .inr (.of_read .point (fun _ => rfl) (f := .unreadableText) rfl rfl)
  | [p] =>
    have htext : String.intercalate " " ([p].map Point.render) = p.render := rfl
    rw [htext]
    refine .inl (TakesBack.keeps (.of_read .point (fun _ => rfl) p.readPoint_render rfl ?_))
    rw [Value.render, p.render_reread]
  | p :: q :: ps =>
    exact .inr (.of_read .point (fun _ => rfl) (Point.readPoint_of_two p q ps) rfl)

/-- A text is the text of a member or is rejected. -/
theorem member_keeps_or_rejects (e : Enumeration) (text : String) :
    (member e).Keeps attr text ∨ (member e).Rejects text := by
  by_cases h : text ∈ e.texts
  · exact .inl (TakesBack.keeps (.of_read (.member e) (fun _ => rfl)
      (Member.readMember_text ⟨text, h⟩) rfl rfl))
  · refine .inr (.of_read (.member e) (fun _ => rfl) (f := .unknownMember) ?_ rfl)
    simp [Raw.readMember, Raw.memberOf, Member.find?, h]

/-- **An earlier kind keeps the text of a value or rejects it.** -/
theorem keeps_or_rejects {v : Value} {e k : Kind} (hv : v.IsReadable) (hk : of? v = some k)
    (he : e ∈ k.earlier) (hrender : v.render = .ok text) :
    e.Keeps attr text ∨ e.Rejects text := by
  cases hv <;> cases hk
  case bool given =>
    obtain rfl := Except.ok.inj hrender
    rcases List.mem_cons.1 he with rfl | he
    · exact .inl (string_keeps_bool _)
    · rw [List.mem_singleton.1 he]
      exact .inr (double_rejects_bool _)
  case int n =>
    obtain rfl := Except.ok.inj hrender
    rw [List.mem_singleton.1 he]
    exact .inr (bool_rejects_int n)
  case double x =>
    obtain rfl := Except.ok.inj hrender
    rw [List.mem_singleton.1 he]
    exact .inr (int_rejects_double x)
  case point p =>
    obtain rfl := Except.ok.inj hrender
    rw [List.mem_singleton.1 he]
    exact .inr (double_rejects_point p)
  case pointList ps =>
    obtain rfl := Except.ok.inj hrender
    rw [List.mem_singleton.1 he]
    exact point_keeps_or_rejects ps
  case addPoint a =>
    obtain rfl := Except.ok.inj hrender
    rw [List.mem_singleton.1 he]
    exact .inr (addDouble_rejects_addPoint a)
  case styleList =>
    rw [List.mem_singleton.1 he]
    exact member_keeps_or_rejects .style text
  all_goals exact absurd he List.not_mem_nil

end Kind

/-- **The text of a value is read back as a value that the attribute accepts and keeps the same text
for**, also where a reader of another kind takes the text first. -/
theorem Value.IsReadable.coerce_render {attr : AttributeId} {v : Value} (hv : v.IsReadable)
    (ha : attr.spec.accepts v = true) :
    ∃ text stored w, v.render = .ok text ∧ storedText attr v = .ok stored ∧
      coerce attr (.text text) = .ok w ∧ attr.spec.accepts w = true ∧
      storedText attr w = .ok stored := by
  obtain ⟨k, hmem, hk⟩ : ∃ k ∈ attr.spec.kinds, Kind.of? v = some k := by
    simpa [Spec.accepts, Kind.accepts] using ha
  obtain ⟨text, hrender, htakes⟩ := Kind.takesBack_render hv hk
  obtain ⟨before, after, hkinds⟩ := List.append_of_mem hmem
  have hearlier := Kind.kinds_earlier attr
  rw [hkinds, List.pairwise_append] at hearlier
  have hbefore : ∀ e ∈ before, e.Keeps attr text ∨ e.Rejects text := fun e he =>
    Kind.keeps_or_rejects hv hk (hearlier.2.2 e he k List.mem_cons_self) hrender
  obtain ⟨w, hw, hstored⟩ := Kind.readFirst_keeps hbefore htakes.keeps
  have hdelimiters : v.hasDelimiters = false := by
    cases hv <;> rfl
  have hcoerce : coerce attr (.text text) = .ok w := by
    rw [coerce, hkinds]
    exact hw
  refine ⟨text, "\"" ++ text ++ "\"", w, hrender, ?_, hcoerce, Spec.accepts_of_coerce hcoerce,
    hstored⟩
  rw [Value.storedText_eq hdelimiters, hrender]
  rfl

/-- A list of one marked point, which comes back as a point. -/
theorem onePoint_read_back :
    Value.IsReadable (.pointList [⟨Double.zero, Double.zero, none, true⟩]) ∧
      (AttributeId.dot .pos).spec.accepts
        (.pointList [⟨Double.zero, Double.zero, none, true⟩]) = true ∧
      ∃ text stored w,
        (Value.pointList [⟨Double.zero, Double.zero, none, true⟩]).render = .ok text ∧
        storedText (.dot .pos) (.pointList [⟨Double.zero, Double.zero, none, true⟩]) =
          .ok stored ∧
        coerce (.dot .pos) (.text text) = .ok w ∧ (AttributeId.dot .pos).spec.accepts w = true ∧
        storedText (.dot .pos) w = .ok stored :=
  ⟨.pointList _, rfl, Value.IsReadable.coerce_render (.pointList _) rfl⟩

end DotWriter
