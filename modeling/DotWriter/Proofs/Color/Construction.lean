import DotWriter.Color.Reading
import DotWriter.Proofs.Color.Hsv
import DotWriter.Proofs.Outcome
import DotWriter.Value.Build

/-!
# Colors that were checked

A color by hue, saturation and value can be written if its components were checked where it was
made.  All other colors can be written anyway.

* `Color.IsChecked` : the components of all colors in it were checked;
* `Color.exists_render` : such a color is written;
* `readColor_isChecked`, `ColorList.addArguments_isChecked` : the readers and the lists of colors
  make no others.
-/

namespace DotWriter

open Outcome

/-- The components of a color by hue, saturation and value were checked. -/
def PlainColor.IsChecked : PlainColor → Prop
  | .hsv c => ∃ hue saturation value, Hsv.of hue saturation value = .ok c
  | _ => True

/-- All colors of a list were checked. -/
def ColorList.IsChecked (l : ColorList) : Prop := ∀ e ∈ l.entries, e.1.IsChecked

/-- The colors in it were checked. -/
def Color.IsChecked : Color → Prop
  | .plain c => c.IsChecked
  | .list l => l.IsChecked

/-! ### Writing -/

theorem PlainColor.exists_render {c : PlainColor} (h : c.IsChecked) :
    ∃ text, c.render = .ok text := by
  cases c with
  | hsv c =>
    obtain ⟨hue, saturation, value, hmade⟩ := h
    obtain ⟨color, hcolor⟩ := Hsv.exists_rgb hmade
    exact ⟨color.render, map_eq_ok.2 ⟨color, hcolor, rfl⟩⟩
  | _ => exact ⟨_, rfl⟩

theorem ColorList.exists_render {l : ColorList} (h : l.IsChecked) :
    ∃ text, l.render = .ok text := by
  have hentries : ∀ e ∈ l.entries, ∃ text, renderEntry e = .ok text := by
    intro e he
    obtain ⟨text, htext⟩ := PlainColor.exists_render (h e he)
    exact ⟨_, bind_eq_ok.2 ⟨text, htext, rfl⟩⟩
  exact exists_bind_pure_iff.2 (exists_mapM_ok_iff.2 hentries)

/-- **A color whose components were checked is written.** -/
theorem Color.exists_render {c : Color} (h : c.IsChecked) : ∃ text, c.render = .ok text := by
  cases c with
  | plain c => exact PlainColor.exists_render h
  | list l => exact ColorList.exists_render h

/-! ### Lists -/

theorem ColorList.empty_isChecked : ColorList.empty.IsChecked := fun _ he =>
  absurd he List.not_mem_nil

theorem ColorList.add_isChecked {l : ColorList} {color : PlainColor} (hl : l.IsChecked)
    (hcolor : color.IsChecked) (weight : Option Binary64) : (l.add color weight).2.IsChecked := by
  have hentries : ∀ w : Option Double, ∀ e ∈ l.entries ++ [(color, w)], e.1.IsChecked := by
    intro w e he
    rcases List.mem_append.1 he with he | he
    · exact hl e he
    · rw [List.mem_singleton.1 he]
      exact hcolor
  unfold add
  split
  · exact hentries _
  · split
    · exact hl
    · split
      · exact hl
      · exact hentries _

theorem Datum.entryColor_eq_ok {d : Datum} {c : PlainColor} :
    d.entryColor = .ok c ↔ d = .value (.color (.plain c)) := by
  constructor
  · intro h
    unfold entryColor at h
    split at h
    · cases h
      rfl
    · cases h
    · exact absurd h (refuse_ne_ok _)
  · rintro rfl
    rfl

/-- The color of a call is its first argument. -/
theorem Datum.mem_of_weightedColor {args : List Datum} {c : PlainColor} {w : Option Binary64}
    (h : weightedColor args = .ok (c, w)) : .value (.color (.plain c)) ∈ args := by
  unfold weightedColor at h
  split at h
  · obtain ⟨c', hc, h⟩ := bind_eq_ok.1 h
    cases h
    exact entryColor_eq_ok.1 hc ▸ List.mem_cons_self
  · obtain ⟨c', hc, h⟩ := bind_eq_ok.1 h
    obtain ⟨w', -, h⟩ := bind_eq_ok.1 h
    cases h
    exact entryColor_eq_ok.1 hc ▸ List.mem_cons_self
  · cases h

/-- Arguments bring a color that is checked if the colors among them are. -/
theorem ColorList.addArguments_isChecked {l : ColorList} {args : List Datum} (hl : l.IsChecked)
    (hargs : ∀ c, .value (.color c) ∈ args → c.IsChecked) :
    (l.addArguments args).2.IsChecked := by
  unfold addArguments
  split
  · rename_i h
    exact add_isChecked hl (hargs _ (Datum.mem_of_weightedColor h)) _
  · exact hl

/-! ### Readers -/

theorem readPlainColor_isChecked (cs : List Char) :
    ReturnsOnly PlainColor.IsChecked (readPlainColor cs) := by
  have hchannels : ∀ channels, ReturnsOnly PlainColor.IsChecked (PlainColor.ofChannels channels) := by
    intro channels
    unfold PlainColor.ofChannels
    split
    · exact .map fun _ _ => trivial
    · exact .bind fun _ _ => .bind fun _ _ => .ok trivial
    · exact .error _
  unfold readPlainColor
  split
  · unfold readHexColor
    split_ifs
    · split
      · exact hchannels _
      · exact .error _
    · exact .error _
  · split_ifs
    · unfold readHsv
      split
      · exact .map fun c hc => ⟨_, _, _, hc⟩
      · exact .error _
    · exact .map fun _ _ => trivial

theorem ColorList.addText_isChecked {l : ColorList} (hl : l.IsChecked) (part : List Char) :
    ReturnsOnly IsChecked (l.addText part) := by
  unfold addText
  split
  · exact .bind fun c hc => .leaving (add_isChecked hl (readPlainColor_isChecked _ c hc) _)
  · refine .bind fun c hc => ?_
    split
    · exact .leaving (add_isChecked hl (readPlainColor_isChecked _ c hc) _)
    · exact .error _

theorem readColor_isChecked (r : Raw) : ReturnsOnly Color.IsChecked (readColor r) := by
  unfold readColor
  split
  · unfold readColorText
    split_ifs
    · exact .map (.foldlM (fun l hl part _ => ColorList.addText_isChecked hl part)
        ColorList.empty_isChecked)
    · exact .map (readPlainColor_isChecked _)
  · exact .error _

end DotWriter
