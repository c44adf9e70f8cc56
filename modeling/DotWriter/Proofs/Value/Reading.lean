import DotWriter.Attribute.Reading
import DotWriter.Proofs.Double.Fixed
import DotWriter.Proofs.Value.Alphabet
import Mathlib.Data.List.Infix

/-!
# Reading the texts of values

What a value is written with is read again by the reader of its kind.  Numbers may come back
changed, but what is read is always written as the value was; `reread` is the value that comes back.

* `Double.readNumber_fixed`, `readNumbers_numbersText` : numbers, and numbers with commas between
  them;
* `readNumber_eq_error`, `Point.readPoint_of_two` : texts that are not read as numbers or points;
* `Point.readPoint_render`, `Point.readPointList_render`, `Rect.readRect_render`,
  `AddDouble.readAddDouble_render`, `AddPoint.readAddPoint_render` : **what is made of numbers**;
* `Member.readMember_text`, `readStyleList_render`, `Sides.readSides_text` : **words**.
-/

namespace DotWriter

/-! ### Numbers -/

theorem not_isBlank_of_isNumberChar {c : Char} (h : isNumberChar c = true) : isBlank c = false := by
  unfold isNumberChar at h
  simp only [Bool.or_eq_true, beq_iff_eq] at h
  rcases h with (hdigit | rfl) | rfl
  · exact not_isBlank_of_isBareChar (isBareChar_of_isDigit hdigit)
  · rfl
  · rfl

/-- A character that numbers are not written with does not occur in their texts. -/
theorem Double.not_mem_fixed {c : Char} (hc : isNumberChar c = false) (x : Double) :
    c ∉ x.fixed.toList :=
  not_mem_of_forall (isNumberText_fixed x) hc

theorem Double.fixed_not_blank (x : Double) : ∀ c ∈ x.fixed.toList, isBlank c = false :=
  fun c hc => not_isBlank_of_isNumberChar (isNumberText_fixed x c hc)

theorem strip_eq_self {cs : List Char} (h : ∀ c ∈ cs, isBlank c = false) : strip cs = cs :=
  trim_eq_self_of_forall h

namespace Double

/-- The text of a number begins and ends with characters of numbers. -/
theorem fixed_ends (x : Double) :
    (∃ b back, x.fixed.toList = b :: back ∧ isNumberChar b = true) ∧
      ∃ front a, x.fixed.toList = front ++ [a] ∧ isNumberChar a = true := by
  have hchars := isNumberText_fixed x
  have hne : x.fixed.toList ≠ [] := by
    rw [fixed, String.toList_ofList, fixedChars]
    simp
  constructor
  · obtain ⟨b, back, hfirst⟩ := List.exists_cons_of_ne_nil hne
    exact ⟨b, back, hfirst, hchars b (hfirst ▸ List.mem_cons_self)⟩
  · obtain ⟨front, a, hlast⟩ := (List.eq_nil_or_concat _).resolve_left hne
    rw [List.concat_eq_append] at hlast
    exact ⟨front, a, hlast, hchars a (hlast ▸ List.mem_append_right _ (List.mem_singleton_self a))⟩

@[simp] theorem fixed_reread (x : Double) : x.reread.fixed = x.fixed := by
  rw [fixed, fixed, x.readDouble?_reread.2]

theorem readNumber_fixed (x : Double) :
    Raw.readNumber (.text x.fixed) = .ok (.finite x.reread) := by
  have hstrip : strip x.fixed.toList = x.fixedChars := by
    rw [strip_eq_self x.fixed_not_blank, fixed, String.toList_ofList]
  simp only [Raw.readNumber, hstrip, x.readDouble?_reread.1]

theorem readDouble_fixed (x : Double) : Raw.readDouble (.text x.fixed) = .ok x.reread := by
  rw [Raw.readDouble, x.readNumber_fixed]
  rfl

end Double

theorem Integer.readInteger_toString (n : Integer) :
    Raw.readInteger (.text (toString n.val)) = .ok n := by
  simp only [Raw.readInteger, readInteger?_toString]
  exact dif_pos n.inRange

/-! ### Numbers with commas between them -/

/-- The text of numbers with commas between them. -/
def numbersText (xs : List Double) : String := String.intercalate "," (xs.map Double.fixed)

theorem mem_numbersText {xs : List Double} {c : Char} (h : c ∈ (numbersText xs).toList) :
    isNumberChar c = true ∨ c = ',' := by
  rcases mem_toList_intercalate h with h | ⟨t, ht, h⟩
  · exact .inr (List.mem_singleton.1 h)
  · obtain ⟨x, -, rfl⟩ := List.mem_map.1 ht
    exact .inl (isNumberText_fixed x c h)

theorem splitOn_numbersText {xs : List Double} (hne : xs ≠ []) :
    (numbersText xs).toList.splitOn ',' = xs.map fun x => x.fixed.toList := by
  rw [numbersText, splitOn_intercalate_toList rfl (by simpa using hne), List.map_map]
  · rfl
  · intro t ht
    obtain ⟨x, -, rfl⟩ := List.mem_map.1 ht
    exact x.not_mem_fixed rfl

/-- Reads a part of a text as a number. -/
def readPart (cs : List Char) : Except Fault Binary64 := Raw.readNumber (.text (String.ofList cs))

theorem readNumbers_text (s : String) :
    Raw.readNumbers (.text s) = (s.toList.splitOn ',').mapM readPart := by
  have hread : Raw.readNumbers (.text s) = (splitText ',' s).mapM Raw.readNumber := rfl
  have hpart : (Raw.readNumber ∘ fun part => Raw.text (String.ofList part)) = readPart := by
    funext part
    rw [Function.comp_apply, readPart]
  rw [hread, splitText, List.mapM_map, hpart]

theorem mapM_readPart (xs : List Double) :
    (xs.map fun x => x.fixed.toList).mapM readPart = .ok (xs.map fun x => .finite x.reread) := by
  refine Outcome.mapM_map_eq_ok fun x _ => ?_
  rw [readPart, String.ofList_toList, x.readNumber_fixed]

theorem readNumbers_numbersText {xs : List Double} (hne : xs ≠ []) :
    Raw.readNumbers (.text (numbersText xs)) = .ok (xs.map fun x => .finite x.reread) := by
  rw [readNumbers_text, splitOn_numbersText hne, mapM_readPart]

theorem cutMark_mark {s : String} (marked : Bool) (h : '!' ∉ s.toList) :
    Raw.cutMark (.text (s ++ if marked then "!" else "")) = (.text s, marked) := by
  cases marked with
  | true =>
    simp [Raw.cutMark]
  | false =>
    simp only [Raw.cutMark, Bool.false_eq_true, if_false, String.append_empty]
    split
    · rename_i front heq
      exact absurd (List.mem_reverse.1 (heq ▸ List.mem_cons_self)) h
    · rfl

theorem cutPlus_plus {s : String} (additive : Bool) (h : '+' ∉ s.toList) :
    Raw.cutPlus (.text ((if additive then "+" else "") ++ s)) = (.text s, additive) := by
  cases additive with
  | true =>
    simp [Raw.cutPlus]
  | false =>
    simp only [Raw.cutPlus, Bool.false_eq_true, if_false, String.empty_append]
    split
    · rename_i rest heq
      exact absurd (heq ▸ List.mem_cons_self) h
    · rfl

/-! ### Texts that are no numbers -/

/-- A text is no number if there is a foreign character in it, apart from the blanks around. -/
theorem readNumber_eq_error {s : String} {w : List Char} {c : Char} (hw : w <:+: s.toList)
    (hfirst : ∀ a ∈ w.head?, isBlank a = false) (hlast : ∀ a ∈ w.getLast?, isBlank a = false)
    (hc : isForeign c = true) (hmem : c ∈ w) :
    Raw.readNumber (.text s) = .error .unreadableText := by
  have hstrip : w <:+: strip s.toList := infix_trim hfirst hlast hw
  have htrim : w <:+: trim isNumeralBlank (strip s.toList) :=
    infix_trim (fun a ha => isNumeralBlank_of_isBlank (hfirst a ha))
      (fun a ha => isNumeralBlank_of_isBlank (hlast a ha)) hstrip
  simp only [Raw.readNumber, readDouble?_eq_none hc (htrim.mem hmem)]

theorem readNumber_of_mem {s : String} {c : Char} (hblank : isBlank c = false)
    (hc : isForeign c = true) (hmem : c ∈ s.toList) :
    Raw.readNumber (.text s) = .error .unreadableText := by
  have hends : ∀ a, some c = some a → isBlank a = false := by
    intro a ha
    cases ha
    exact hblank
  exact readNumber_eq_error ((List.singleton_infix_iff c s.toList).2 hmem) hends hends hc
    (List.mem_singleton_self c)

/-- Numbers are not read if one part of the text is none. -/
theorem readNumbers_eq_error {s : String} (h : ∃ part ∈ s.toList.splitOn ',',
    readPart part = .error .unreadableText) :
    Raw.readNumbers (.text s) = .error .unreadableText := by
  rw [readNumbers_text]
  refine Outcome.mapM_eq_error (fun part _ => ?_) h
  rw [readPart, Raw.readNumber]
  cases readDouble? (strip (String.ofList part).toList) with
  | none => exact .inl rfl
  | some x => exact .inr ⟨x, rfl⟩

/-- A number with a point in it is no integer. -/
theorem Double.readInteger_fixed (x : Double) :
    Raw.readInteger (.text x.fixed) = .error .unreadableText := by
  have hpoint : '.' ∈ x.fixed.toList := by
    rw [fixed, String.toList_ofList, fixedChars]
    exact List.mem_append_right _ List.mem_cons_self
  have hblank : ∀ c ∈ x.fixed.toList, isNumeralBlank c = false := fun c hc =>
    isNumeralBlank_of_isBlank (x.fixed_not_blank c hc)
  have hread : readInteger? x.fixed.toList = none := by
    refine readInteger?_eq_none (c := '.') rfl (by decide) ?_
    rwa [trim_eq_self_of_forall hblank]
  simp only [Raw.readInteger, hread]

/-! ### Points -/

namespace Point

/-- The point that is read from the text of a point. -/
def reread (p : Point) : Point := ⟨p.x.reread, p.y.reread, p.z.map Double.reread, p.marked⟩

@[simp] theorem render_reread (p : Point) : p.reread.render = p.render := by
  have hcoordinates : p.reread.coordinates.map Double.fixed = p.coordinates.map Double.fixed := by
    obtain ⟨x, y, z, marked⟩ := p
    cases z <;> simp [reread, coordinates]
  rw [render, render, hcoordinates]
  rfl

theorem readPoint_render (p : Point) : Raw.readPoint (.text p.render) = .ok p.reread := by
  have hcut : Raw.cutMark (.text p.render) = (.text (numbersText p.coordinates), p.marked) :=
    cutMark_mark p.marked fun h => absurd (mem_numbersText h) (by decide)
  have hne : p.coordinates ≠ [] := by simp [coordinates]
  rw [Raw.readPoint, hcut]
  simp only [readNumbers_numbersText hne]
  obtain ⟨x, y, z, marked⟩ := p
  cases z <;> rfl

/-- The text of a point begins with a character of its first coordinate and ends with one of its
last coordinate or with the mark. -/
theorem render_ends (p : Point) :
    (∃ b back, p.render.toList = b :: back ∧ isNumberChar b = true) ∧
      ∃ front a, p.render.toList = front ++ [a] ∧ (isNumberChar a = true ∨ a = '!') := by
  obtain ⟨x, y, z, marked⟩ := p
  obtain ⟨⟨b, back, hfirst, hb⟩, -⟩ := x.fixed_ends
  obtain ⟨-, front, a, hlast, ha⟩ := (z.getD y).fixed_ends
  have hshape : ∃ body, (⟨x, y, z, marked⟩ : Point).render.toList =
      x.fixed.toList ++ body ++ (z.getD y).fixed.toList ++ if marked then ['!'] else [] := by
    cases z with
    | none =>
      refine ⟨[','], ?_⟩
      cases marked <;> simp [render, coordinates]
    | some z =>
      refine ⟨',' :: (y.fixed.toList ++ [',']), ?_⟩
      cases marked <;> simp [render, coordinates]
  obtain ⟨body, hshape⟩ := hshape
  constructor
  · rw [hshape, hfirst]
    exact ⟨b, _, rfl, hb⟩
  · rw [hshape, hlast]
    cases marked with
    | true => exact ⟨_, '!', rfl, .inr rfl⟩
    | false => exact ⟨x.fixed.toList ++ body ++ front, a, by simp, .inl ha⟩

theorem render_isWord (p : Point) :
    p.render ≠ "" ∧ ∀ c ∈ p.render.toList, isBlank c = false := by
  obtain ⟨⟨b, back, hfirst, -⟩, -⟩ := p.render_ends
  constructor
  · intro hempty
    rw [hempty] at hfirst
    exact absurd hfirst (by simp)
  · intro c hc
    rw [render, String.toList_append] at hc
    rcases List.mem_append.1 hc with hc | hc
    · rcases mem_numbersText hc with hc | rfl
      · exact not_isBlank_of_isNumberChar hc
      · rfl
    · split_ifs at hc
      · rw [List.mem_singleton.1 hc]
        rfl
      · exact absurd hc List.not_mem_nil

theorem readPointList_render (ps : List Point) :
    Raw.readPointList (.text (String.intercalate " " (ps.map render))) = .ok (ps.map reread) := by
  have hwords : words (String.intercalate " " (ps.map render)).toList =
      ps.map fun p => p.render.toList := by
    rw [words_intercalate, List.map_map]
    · rfl
    · intro t ht
      obtain ⟨p, -, rfl⟩ := List.mem_map.1 ht
      exact p.render_isWord
  have hread : Raw.readPointList (.text (String.intercalate " " (ps.map render))) =
      (words (String.intercalate " " (ps.map render)).toList).mapM fun w =>
        Raw.readPoint (.text (String.ofList w)) := rfl
  rw [hread, hwords]
  refine Outcome.mapM_map_eq_ok fun p _ => ?_
  rw [String.ofList_toList, p.readPoint_render]

/-- A comma stands between the coordinates. -/
theorem comma_mem_render (p : Point) : ',' ∈ p.render.toList := by
  obtain ⟨x, y, z, marked⟩ := p
  cases z <;> simp [render, coordinates]

/-- A mark at the end does not touch what ends with another character. -/
theorem cutMark_infix {s : String} {w : List Char} {b : Char} (hb : b ≠ '!')
    (hw : w ++ [b] <:+: s.toList) :
    ∃ t marked, Raw.cutMark (.text s) = (.text t, marked) ∧ w ++ [b] <:+: t.toList := by
  unfold Raw.cutMark
  split
  · rename_i s' heq
    cases heq
    split
    · rename_i front hreverse
      refine ⟨String.ofList front.reverse, true, rfl, ?_⟩
      rw [String.toList_ofList]
      have hchars : s.toList = front.reverse ++ ['!'] := by
        rw [← List.reverse_reverse s.toList, hreverse, List.reverse_cons]
      rw [hchars, List.infix_concat_iff] at hw
      refine hw.resolve_left ?_
      rintro ⟨back, hback⟩
      rw [← List.append_assoc] at hback
      exact hb (List.cons.inj (List.append_inj' hback rfl).2).1
    · exact ⟨s, false, rfl, hw⟩
  · rename_i hnot
    exact absurd rfl (hnot s)

/-- Between two points stands a blank, which is surrounded by characters of a coordinate. -/
theorem exists_blank_between (p q : Point) (ps : List Point) :
    ∃ a b, [a, ' '] ++ [b] <:+: (String.intercalate " " ((p :: q :: ps).map render)).toList ∧
      (isBlank a = false ∧ a ≠ ',') ∧ isNumberChar b = true := by
  obtain ⟨-, front, a, hlast, ha⟩ := p.render_ends
  obtain ⟨⟨b, back, hfirst, hb⟩, -⟩ := q.render_ends
  have hchars : ∃ tail, (String.intercalate " " ((p :: q :: ps).map render)).toList =
      p.render.toList ++ ' ' :: (q.render.toList ++ tail) := by
    rw [String.toList_intercalate]
    cases ps with
    | nil => exact ⟨[], by simp⟩
    | cons r ps =>
      exact ⟨' ' :: (String.intercalate " " ((r :: ps).map render)).toList, by simp⟩
  obtain ⟨tail, hchars⟩ := hchars
  refine ⟨a, b, ?_, ?_, hb⟩
  · rw [hchars, hlast, hfirst]
    exact ⟨front, back ++ tail, by simp⟩
  · rcases ha with ha | rfl
    · exact ⟨not_isBlank_of_isNumberChar ha, by rintro rfl; cases ha⟩
    · exact ⟨rfl, by decide⟩

/-- Two points or more are no point: the part with the blank in it is no coordinate. -/
theorem readPoint_of_two (p q : Point) (ps : List Point) :
    Raw.readPoint (.text (String.intercalate " " ((p :: q :: ps).map render))) =
      .error .unreadableText := by
  obtain ⟨a, b, hinfix, ⟨hblank, hcomma⟩, hb⟩ := exists_blank_between p q ps
  have hb' : b ≠ '!' ∧ b ≠ ',' := by
    constructor <;> rintro rfl <;> cases hb
  -- neither the mark at the end nor the commas touch the blank
  obtain ⟨t, marked, hcut, ht⟩ := cutMark_infix hb'.1 hinfix
  have hnot : ',' ∉ [a, ' '] ++ [b] := by simp [hcomma.symm, hb'.2.symm]
  obtain ⟨part, hpart, hw⟩ := exists_part_of_infix hnot ht
  have hfail : readPart part = .error .unreadableText := by
    have hspace : isForeign ' ' = true := by decide +kernel
    have hmem : ' ' ∈ [a, ' '] ++ [b] := by simp
    have hw' : [a, ' '] ++ [b] <:+: (String.ofList part).toList := by rwa [String.toList_ofList]
    refine readNumber_eq_error hw' ?_ ?_ hspace hmem
    · rintro c ⟨⟩
      exact hblank
    · rintro c ⟨⟩
      exact not_isBlank_of_isNumberChar hb
  rw [Raw.readPoint, hcut]
  simp only [readNumbers_eq_error ⟨part, hpart, hfail⟩]
  rfl

/-- A plain point is nothing but two coordinates. -/
theorem exists_of_isPlain {p : Point} (h : p.isPlain = true) : ∃ x y, p = ⟨x, y, none, false⟩ := by
  obtain ⟨x, y, _ | z, marked⟩ := p
  · cases marked with
    | false => exact ⟨x, y, rfl⟩
    | true => cases h
  · cases h

end Point

namespace Rect

theorem of_eq_ok {low high : Point} {r : Rect} :
    of low high = .ok r ↔ low.isPlain = true ∧ high.isPlain = true ∧ r = ⟨low, high⟩ := by
  unfold of Point.isPlain
  cases low.is3d <;> cases high.is3d <;> cases low.marked <;> cases high.marked <;>
    simp [eq_comm]

/-- The rectangle that is read from the text of a rectangle. -/
def reread (r : Rect) : Rect := ⟨r.lowerLeft.reread, r.upperRight.reread⟩

@[simp] theorem render_reread (r : Rect) : r.reread.render = r.render := by
  simp [render, reread]

theorem readRect_render {low high : Point} {r : Rect} (h : of low high = .ok r) :
    Raw.readRect (.text r.render) = .ok r.reread := by
  obtain ⟨hlow, hhigh, rfl⟩ := of_eq_ok.1 h
  obtain ⟨a, b, rfl⟩ := Point.exists_of_isPlain hlow
  obtain ⟨c, d, rfl⟩ := Point.exists_of_isPlain hhigh
  have hrender : render ⟨⟨a, b, none, false⟩, ⟨c, d, none, false⟩⟩ = numbersText [a, b, c, d] := by
    change a.fixed ++ "," ++ b.fixed ++ "" ++ "," ++ (c.fixed ++ "," ++ d.fixed ++ "") =
      a.fixed ++ "," ++ b.fixed ++ "," ++ c.fixed ++ "," ++ d.fixed
    simp [String.append_assoc]
  rw [hrender, Raw.readRect, readNumbers_numbersText (List.cons_ne_nil a [b, c, d])]
  rfl

end Rect

/-! ### Numbers that are added -/

namespace AddDouble

/-- The number that is read from the text of one. -/
def reread (a : AddDouble) : AddDouble := ⟨a.value.reread, a.additive⟩

@[simp] theorem render_reread (a : AddDouble) : a.reread.render = a.render := by
  unfold render reread
  rw [Double.fixed_reread]

theorem readAddDouble_render (a : AddDouble) :
    Raw.readAddDouble (.text a.render) = .ok a.reread := by
  have hcut : Raw.cutPlus (.text a.render) = (.text a.value.fixed, a.additive) :=
    cutPlus_plus a.additive (a.value.not_mem_fixed rfl)
  rw [Raw.readAddDouble, hcut]
  simp only [a.value.readNumber_fixed]
  rfl

end AddDouble

namespace AddPoint

/-- The pair that is read from the text of one. -/
def reread (a : AddPoint) : AddPoint := ⟨a.x.reread, a.y.reread, a.additive⟩

@[simp] theorem render_reread (a : AddPoint) : a.reread.render = a.render := by
  unfold render reread
  rw [Double.fixed_reread, Double.fixed_reread]

theorem render_eq (a : AddPoint) :
    a.render = (if a.additive then "+" else "") ++ numbersText [a.x, a.y] := by
  have hnumbers : numbersText [a.x, a.y] = a.x.fixed ++ "," ++ a.y.fixed := rfl
  rw [render, hnumbers, String.append_assoc, String.append_assoc, String.append_assoc]

theorem cutPlus_render (a : AddPoint) :
    Raw.cutPlus (.text a.render) = (.text (numbersText [a.x, a.y]), a.additive) := by
  rw [a.render_eq]
  exact cutPlus_plus a.additive fun h => absurd (mem_numbersText h) (by decide)

theorem readAddPoint_render (a : AddPoint) :
    Raw.readAddPoint (.text a.render) = .ok a.reread := by
  rw [Raw.readAddPoint, cutPlus_render]
  simp only [readNumbers_numbersText (List.cons_ne_nil a.x [a.y])]
  rfl

end AddPoint

/-! ### Words -/

/-- The characters of numbers have no other case. -/
theorem lowerChar_of_isNumberChar {c : Char} (h : isNumberChar c = true) : lowerChar c = c := by
  have hkelvin : c ≠ '\u212A' := by
    rintro rfl
    cases h
  have hcapital : ¬(c.val ≥ 'A'.val ∧ c.val ≤ 'Z'.val) := by
    unfold isNumberChar Char.isDigit at h
    simp only [Bool.or_eq_true, Bool.and_eq_true, decide_eq_true_eq, beq_iff_eq] at h
    rcases h with (⟨-, hle⟩ | rfl) | rfl
    · rintro ⟨hge, -⟩
      exact absurd (UInt32.le_trans hge hle) (by decide)
    · decide
    · decide
  rw [lowerChar, if_neg hkelvin]
  exact dif_neg hcapital

/-- The text of an integer is no truth value. -/
theorem Integer.readBool_toString (n : Integer) :
    Raw.readBool (.text (toString n.val)) = .error .unreadableText := by
  have hsame : lower (toString n.val) = toString n.val := by
    rw [lower, List.map_congr_left fun c hc =>
      lowerChar_of_isNumberChar (isNumberText_int n.val c hc), List.map_id', String.ofList_toList]
  have hword : ∀ word : String, (∃ c ∈ word.toList, isNumberChar c = false) →
      toString n.val ≠ word := by
    rintro _ ⟨c, hc, hnot⟩ rfl
    exact not_mem_of_forall (isNumberText_int n.val) hnot hc
  simp only [Raw.readBool, hsame]
  rw [if_neg (hword "true" ⟨'t', by decide, rfl⟩), if_neg (hword "false" ⟨'f', by decide, rfl⟩)]

theorem readBool_renderBool (b : Bool) : Raw.readBool (.text (Value.renderBool b)) = .ok b := by
  cases b <;> decide +kernel

theorem Member.readMember_text {e : Enumeration} (m : Member e) :
    Raw.readMember e (.text m.text) = .ok m := by
  simp [Raw.readMember, Raw.memberOf]

theorem Member.not_isBlank_of_mem_text {e : Enumeration} (m : Member e) :
    ∀ c ∈ m.text.toList, isBlank c = false := fun c hc =>
  not_isBlank_of_isBareChar ((isBareChar_of_isIdentifier m.text_isIdentifier).2 c hc)

/-- A mark does not occur in the text of a member. -/
theorem Member.not_mem_text {e : Enumeration} (m : Member e) {c : Char}
    (hc : isBareChar c = false) : c ∉ m.text.toList :=
  not_mem_of_forall (isBareChar_of_isIdentifier m.text_isIdentifier).2 hc

theorem splitText_intercalate {sep : String} {c : Char} (hsep : sep.toList = [c])
    {texts : List String} (hne : texts ≠ []) (h : ∀ t ∈ texts, c ∉ t.toList) :
    splitText c (String.intercalate sep texts) = texts.map Raw.text := by
  rw [splitText, splitOn_intercalate_toList hsep hne h, List.map_map]
  simp [Function.comp_def]

theorem readStyleList_render {styles : List (Member .style)} (hne : styles ≠ []) :
    Raw.readStyleList (.text (String.intercalate "," (styles.map Member.text))) = .ok styles := by
  have hsplit : splitText ',' (String.intercalate "," (styles.map Member.text)) =
      styles.map fun m => .text m.text := by
    rw [splitText_intercalate rfl (by simpa using hne), List.map_map]
    · rfl
    · intro t ht
      obtain ⟨m, -, rfl⟩ := List.mem_map.1 ht
      exact m.not_mem_text rfl
  have hread : ∀ m : Member .style, Raw.readStyle (.text m.text) = .ok m := by
    intro m
    rw [Raw.readStyle, Raw.plain, strip_eq_self m.not_isBlank_of_mem_text, String.ofList_toList]
    simp [Raw.memberOf]
  have hall : (styles.map fun m => Raw.text m.text).mapM Raw.readStyle = .ok (styles.map id) :=
    Outcome.mapM_map_eq_ok fun m _ => hread m
  rw [List.map_id] at hall
  simp only [Raw.readStyleList, Raw.plain, hsplit, hall]
  simp [Raw.styleListOf, bind, Except.bind, hne]

theorem Sides.readSides_text {s : Sides} (hs : s ≠ .none) :
    Raw.readSides (.text s.text) = .ok s := by
  obtain ⟨l, r, b, t⟩ := s
  revert l r b t
  decide +kernel

end DotWriter
