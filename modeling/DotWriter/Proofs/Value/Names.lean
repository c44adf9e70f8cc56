import DotWriter.Proofs.Value.Reading

/-!
# Reading values with names in them

Layers, ports and the node in the centre of a view port are named by texts.  The separators of these
values do not occur in the names of layers, and the others are read again if their separator does
not occur in them.

* `LayerList.readLayerList_render`, `LayerRange.readLayerRange_render` : layers;
* `PortPos.readPortPos_render` : ports and compass points;
* `ViewPort.readViewPort_render` : view ports.
-/

namespace DotWriter

/-! ### Layers -/

theorem checkLayerName_text {s : String} (h : checkLayerName (.text s) = .ok ()) :
    s ≠ "" ∧ ∀ c ∈ s.toList, isLayerSeparator c = false := by
  unfold checkLayerName at h
  split_ifs at h with hempty
  dsimp only at h
  split_ifs at h with hsep
  refine ⟨by simpa [Raw.isTruthy] using hempty, fun c hc => ?_⟩
  simpa using fun hc' => hsep (List.any_eq_true.2 ⟨c, hc, hc'⟩)

/-- The separators do not occur in the name of a layer. -/
theorem not_mem_layerName {s : String} (h : checkLayerName (.text s) = .ok ()) {c : Char}
    (hc : isLayerSeparator c = true) : c ∉ s.toList := by
  intro hmem
  rw [(checkLayerName_text h).2 c hmem] at hc
  cases hc

/-- Layers are taken if there are any and each of them passes. -/
theorem checkLayers_eq_ok {α : Type} {fault : Fault} {check : Raw → Except Fault Unit}
    {items : List Raw} {made l : α} :
    (do
      if items.isEmpty then .error fault
      items.forM check
      return made : Except Fault α) = .ok l ↔
      items ≠ [] ∧ (∀ item ∈ items, check item = .ok ()) ∧ l = made := by
  rw [← Outcome.forM_eq_ok]
  cases items with
  | nil =>
    constructor
    · intro h
      cases h
    · rintro ⟨hne, -⟩
      exact absurd rfl hne
  | cons item items =>
    constructor
    · intro h
      obtain ⟨_, hall, h⟩ := Outcome.bind_eq_ok.1 h
      cases h
      exact ⟨List.cons_ne_nil item items, hall, rfl⟩
    · rintro ⟨-, hall, rfl⟩
      exact Outcome.bind_eq_ok.2 ⟨(), hall, rfl⟩

namespace LayerList

theorem of_eq_ok {names : List Raw} {l : LayerList} :
    of names = .ok l ↔
      names ≠ [] ∧ (∀ name ∈ names, checkLayerName name = .ok ()) ∧ l = ⟨names⟩ :=
  checkLayers_eq_ok

theorem render_texts (texts : List String) :
    render ⟨texts.map .text⟩ = .ok (String.intercalate ":" texts) := by
  have hall : (texts.map Raw.text).mapM nameText = .ok (texts.map id) :=
    Outcome.mapM_map_eq_ok fun _ _ => rfl
  rw [List.map_id] at hall
  rw [render, hall]
  rfl

theorem readLayerList_render {texts : List String} {l : LayerList}
    (h : of (texts.map .text) = .ok l) :
    ∃ text, l.render = .ok text ∧ Raw.readLayerList (.text text) = .ok l := by
  obtain ⟨hne, hnames, rfl⟩ := of_eq_ok.1 h
  refine ⟨_, render_texts texts, ?_⟩
  have hsplit : splitText ':' (String.intercalate ":" texts) = texts.map .text := by
    refine splitText_intercalate rfl (by simpa using hne) fun t ht => ?_
    exact not_mem_layerName (hnames _ (List.mem_map_of_mem ht)) rfl
  have hread : Raw.readLayerList (.text (String.intercalate ":" texts)) =
      of (splitText ':' (String.intercalate ":" texts)) := rfl
  rw [hread, hsplit, h]

end LayerList

namespace LayerRange

theorem of_eq_ok {items : List Raw} {l : LayerRange} :
    of items = .ok l ↔
      items ≠ [] ∧ (∀ item ∈ items, checkItem item = .ok ()) ∧ l = ⟨items⟩ :=
  checkLayers_eq_ok

/-- A single layer, or a range from one layer to another. -/
inductive IsItem : Raw → Prop
  | name (s : String) : IsItem (.text s)
  | range (first last : String) : IsItem (.list [.text first, .text last])

/-- An item is read again from its text, which has no comma in it. -/
theorem layerItem_renderItem {item : Raw} (hitem : IsItem item) (h : checkItem item = .ok ()) :
    ∃ t, renderItem item = .ok t ∧ ',' ∉ t.toList ∧ Raw.layerItem t = item := by
  cases hitem with
  | name s =>
    have hs : checkLayerName (.text s) = .ok () := h
    refine ⟨s, rfl, not_mem_layerName hs rfl, ?_⟩
    rw [Raw.layerItem, cutFirst_of_not_mem (not_mem_layerName hs rfl)]
  | range first last =>
    have hends : ∀ name ∈ [Raw.text first, Raw.text last], checkLayerName name = .ok () :=
      Outcome.forM_eq_ok.1 h
    have hfirst := hends _ List.mem_cons_self
    have hlast := hends _ (List.mem_cons_of_mem _ List.mem_cons_self)
    have hchars : (first ++ ":" ++ last).toList = first.toList ++ ':' :: last.toList := by simp
    refine ⟨first ++ ":" ++ last, rfl, ?_, ?_⟩
    · rw [hchars]
      simp [not_mem_layerName hfirst (c := ',') rfl, not_mem_layerName hlast (c := ',') rfl]
    · rw [Raw.layerItem, hchars, cutFirst_append (not_mem_layerName hfirst rfl)]
      simp

theorem exists_texts {items : List Raw} (hitems : ∀ item ∈ items, IsItem item)
    (h : ∀ item ∈ items, checkItem item = .ok ()) :
    ∃ texts, items.mapM renderItem = .ok texts ∧ (∀ t ∈ texts, ',' ∉ t.toList) ∧
      texts.map Raw.layerItem = items := by
  induction items with
  | nil => exact ⟨[], rfl, by simp, rfl⟩
  | cons item items ih =>
    obtain ⟨hitem, hitems⟩ := List.forall_mem_cons.1 hitems
    obtain ⟨hcheck, hchecks⟩ := List.forall_mem_cons.1 h
    obtain ⟨t, ht, hcomma, hback⟩ := layerItem_renderItem hitem hcheck
    obtain ⟨texts, htexts, hcommas, hbacks⟩ := ih hitems hchecks
    refine ⟨t :: texts, ?_, List.forall_mem_cons.2 ⟨hcomma, hcommas⟩, by simp [hback, hbacks]⟩
    rw [List.mapM_cons, ht, htexts]
    rfl

theorem readLayerRange_render {items : List Raw} {l : LayerRange} (h : of items = .ok l)
    (hitems : ∀ item ∈ items, IsItem item) :
    ∃ text, l.render = .ok text ∧ Raw.readLayerRange (.text text) = .ok l := by
  obtain ⟨hne, hchecks, rfl⟩ := of_eq_ok.1 h
  obtain ⟨texts, htexts, hcommas, rfl⟩ := exists_texts hitems hchecks
  refine ⟨String.intercalate "," texts, by rw [render, htexts]; rfl, ?_⟩
  have hread : Raw.readLayerRange (.text (String.intercalate "," texts)) =
      of ((splitText ',' (String.intercalate "," texts)).map fun item =>
        Raw.layerItem item.plain) := rfl
  rw [hread, splitText_intercalate rfl (by simpa using hne) hcommas, List.map_map]
  exact h

end LayerRange

/-! ### Ports -/

namespace PortPos

theorem of_eq_ok {port : Option String} {compass : Option (Member .compassPoint)} {p : PortPos} :
    of port compass = .ok p ↔
      p = ⟨port, compass⟩ ∧ (p.portName? = none → compass ≠ none) := by
  unfold of
  dsimp only
  constructor
  · intro h
    split_ifs at h with hempty
    cases h
    refine ⟨rfl, fun hname hcompass => hempty ?_⟩
    rw [hname, hcompass]
    rfl
  · rintro ⟨rfl, hgiven⟩
    refine if_neg fun hempty => ?_
    simp only [Bool.and_eq_true, Option.isNone_iff_eq_none] at hempty
    exact hgiven hempty.1 hempty.2

theorem portName?_eq_some {p : PortPos} {s : String} :
    p.portName? = some s ↔ p.port = some s ∧ s ≠ "" := by
  simp [portName?, Option.filter_eq_some_iff]

/-- A text without a colon is read as a compass point or as a port, and is written again as it
was. -/
theorem readPortPos_plain {s : String} (hne : s ≠ "") (hcolon : ':' ∉ s.toList) :
    ∃ q : PortPos, Raw.readPortPos (.text s) = .ok q ∧ q.render = s := by
  simp only [Raw.readPortPos, cutLast_of_not_mem hcolon, Option.getD_none, if_true,
    String.ofList_toList]
  cases hfind : Member.find? .compassPoint s with
  | some m =>
    refine ⟨⟨none, some m⟩, rfl, ?_⟩
    unfold Member.find? at hfind
    split_ifs at hfind
    cases hfind
    rfl
  | none =>
    have hname : portName? ⟨some s, none⟩ = some s := portName?_eq_some.2 ⟨rfl, hne⟩
    refine ⟨⟨some s, none⟩, of_eq_ok.2 ⟨rfl, by simp [hname]⟩, ?_⟩
    simp [render, hname]

theorem readPortPos_both {s : String} (hne : s ≠ "") (m : Member .compassPoint) :
    Raw.readPortPos (.text (s ++ ":" ++ m.text)) = .ok ⟨some s, some m⟩ := by
  have hchars : (s ++ ":" ++ m.text).toList = s.toList ++ ':' :: m.text.toList := by simp
  have hfront : s.toList ≠ [] := by simpa using hne
  simp only [Raw.readPortPos, hchars, cutLast_append _ (m.not_mem_text (c := ':') rfl),
    Option.getD_some, hfront, if_false, String.ofList_toList, Raw.memberOf, Member.find?_text]
  exact of_eq_ok.2 ⟨rfl, by simp⟩

theorem readPortPos_render {port : Option String} {compass : Option (Member .compassPoint)}
    {p : PortPos} (h : of port compass = .ok p)
    (hport : compass = none → ∀ s ∈ port, ':' ∉ s.toList) :
    ∃ q : PortPos, Raw.readPortPos (.text p.render) = .ok q ∧ q.render = p.render := by
  obtain ⟨rfl, hgiven⟩ := of_eq_ok.1 h
  cases hname : portName? ⟨port, compass⟩ with
  | none =>
    obtain ⟨m, rfl⟩ := Option.ne_none_iff_exists'.1 (hgiven hname)
    have hrender : render ⟨port, some m⟩ = m.text := by simp [render, hname]
    have hne : m.text ≠ "" := by
      simpa using (isBareChar_of_isIdentifier m.text_isIdentifier).1
    rw [hrender]
    exact readPortPos_plain hne (m.not_mem_text rfl)
  | some s =>
    obtain ⟨hs, hne⟩ := portName?_eq_some.1 hname
    cases compass with
    | none =>
      have hrender : render ⟨port, none⟩ = s := by simp [render, hname]
      rw [hrender]
      exact readPortPos_plain hne (hport rfl s hs)
    | some m =>
      have hrender : render ⟨port, some m⟩ = s ++ ":" ++ m.text := by
        simp only [render, hname]
        rfl
      rw [hrender, readPortPos_both hne m, ← hrender]
      cases hs
      exact ⟨_, rfl, rfl⟩

end PortPos

/-! ### View ports -/

namespace ViewPort

theorem of_eq_ok {width height zoom : Double} {center : Center} {v : ViewPort} :
    of width height zoom center = .ok v ↔
      v = ⟨width, height, zoom, center⟩ ∧ ∀ p, center = .point p → p.isPlain = true := by
  constructor
  · intro h
    cases center with
    | point p =>
      unfold of at h
      dsimp only at h
      split_ifs at h with hp
      cases h
      exact ⟨rfl, fun q hq => by cases hq; exact hp⟩
    | none | node =>
      cases h
      exact ⟨rfl, fun _ hq => by cases hq⟩
  · rintro ⟨rfl, hplain⟩
    cases center with
    | point p => exact if_pos (hplain p rfl)
    | none | node => rfl

/-- Three numbers are the size and the zoom. -/
theorem readViewPortParts_size {a b c : List Char} {w h z : Binary64}
    (hread : [a, b, c].mapM readPart = .ok [w, h, z]) :
    Raw.readViewPortParts [a, b, c] = Raw.viewPortOf .none [w, h, z] := by
  change ([a, b, c].mapM fun cs => Raw.readNumber (.text (String.ofList cs))) = _ at hread
  unfold Raw.readViewPortParts
  dsimp only
  rw [hread]
  rfl

/-- Five numbers are the size, the zoom and a point. -/
theorem readViewPortParts_point {a b c d e : List Char} {w h z x y : Binary64}
    (hread : [a, b, c, d, e].mapM readPart = .ok [w, h, z, x, y]) :
    Raw.readViewPortParts [a, b, c, d, e] =
      (do Raw.viewPortOf (.point (← Raw.pointOf false [x, y])) [w, h, z]) := by
  change ([a, b, c, d, e].mapM fun cs => Raw.readNumber (.text (String.ofList cs))) = _ at hread
  unfold Raw.readViewPortParts
  dsimp only
  rw [hread]
  rfl

/-- The fourth of four parts is a node between single quotes. -/
theorem readViewPortParts_node {a b c : List Char} {xs : List Binary64} (name : List Char)
    (hread : [a, b, c].mapM readPart = .ok xs) :
    Raw.readViewPortParts [a, b, c, '\'' :: (name ++ ['\''])] =
      Raw.viewPortOf (.node (String.ofList name)) xs := by
  change ([a, b, c].mapM fun cs => Raw.readNumber (.text (String.ofList cs))) = _ at hread
  have hlast : ('\'' :: (name ++ ['\''])).getLast? = some '\'' := by
    rw [← List.cons_append, List.getLast?_concat]
  have hquoted : Raw.unquoted? ('\'' :: (name ++ ['\''])) = some name := by
    simp [Raw.unquoted?, hlast]
  unfold Raw.readViewPortParts
  simp only [hquoted, List.take_succ_cons, List.take_zero, hread]
  rfl

theorem readViewPort_render {width height zoom : Double} {center : Center} {v : ViewPort}
    (h : of width height zoom center = .ok v)
    (hnode : ∀ name, center = .node name → ',' ∉ name.toList) :
    ∃ w : ViewPort, Raw.readViewPort (.text v.render) = .ok w ∧ w.render = v.render := by
  obtain ⟨rfl, hplain⟩ := of_eq_ok.1 h
  have hread : ∀ s, Raw.readViewPort (.text s) = Raw.readViewPortParts (s.toList.splitOn ',') :=
    fun _ => rfl
  have hsplit := splitOn_numbersText (List.cons_ne_nil width [height, zoom])
  have hsize := mapM_readPart [width, height, zoom]
  rw [hread]
  -- a view port without a centre
  have hnone : ∃ w : ViewPort, Raw.readViewPortParts
      ((numbersText [width, height, zoom]).toList.splitOn ',') = .ok w ∧
        w.render = numbersText [width, height, zoom] := by
    rw [hsplit]
    refine ⟨⟨width.reread, height.reread, zoom.reread, .none⟩, readViewPortParts_size hsize, ?_⟩
    simp [render, numbersText]
  cases center with
  | none => exact hnone
  | point p =>
    obtain ⟨x, y, rfl⟩ := Point.exists_of_isPlain (hplain p rfl)
    have hrender : render ⟨width, height, zoom, .point ⟨x, y, none, false⟩⟩ =
        numbersText [width, height, zoom, x, y] := by
      change numbersText [width, height, zoom] ++ "," ++ (x.fixed ++ "," ++ y.fixed ++ "") =
        numbersText [width, height, zoom] ++ "," ++ x.fixed ++ "," ++ y.fixed
      simp [String.append_assoc]
    rw [hrender, splitOn_numbersText (List.cons_ne_nil width [height, zoom, x, y])]
    refine ⟨⟨width.reread, height.reread, zoom.reread, .point ⟨x.reread, y.reread, none, false⟩⟩,
      readViewPortParts_point (mapM_readPart [width, height, zoom, x, y]), ?_⟩
    rw [← hrender]
    simp [render, Point.render, Point.coordinates]
  | node name =>
    by_cases hname : name = ""
    · have hrender : render ⟨width, height, zoom, .node name⟩ = numbersText [width, height, zoom] :=
        if_pos hname
      rw [hrender]
      exact hnone
    · have hrender : render ⟨width, height, zoom, .node name⟩ =
          numbersText [width, height, zoom] ++ ",'" ++ name ++ "'" := if_neg hname
      have hquoted : ',' ∉ '\'' :: (name.toList ++ ['\'']) := by simpa using hnode name rfl
      have hchars : (numbersText [width, height, zoom] ++ ",'" ++ name ++ "'").toList =
          (numbersText [width, height, zoom]).toList ++ ',' :: '\'' :: (name.toList ++ ['\'']) := by
        simp
      rw [hrender, hchars, List.splitOn_append_cons_self, hsplit, List.splitOn_eq_singleton hquoted]
      refine ⟨⟨width.reread, height.reread, zoom.reread, .node name⟩, ?_, ?_⟩
      · have hparts := readViewPortParts_node name.toList hsize
        rw [String.ofList_toList] at hparts
        exact hparts
      · rw [← hrender]
        simp [render]

end ViewPort

end DotWriter
