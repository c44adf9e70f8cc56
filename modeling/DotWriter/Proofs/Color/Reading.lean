import DotWriter.Color.Reading
import DotWriter.Proofs.Text.Split
import DotWriter.Proofs.Value.Alphabet

/-!
# Reading the texts of colors

A color is written by its channels or by its name.  `PlainColor.readColor_render` is the main
statement: **what a color is written with is read as a color that is written in the same way**.
A color given by hue, saturation and value comes back by its channels.
-/

namespace DotWriter

/-! ### Channels -/

/-- The two digits of a channel are read as the channel. -/
theorem hexByte_spec (b : UInt8) : ∃ high low, hexByte b = [high, low] ∧
    readHexPair? high low = some (b.toNat : Int) := by
  have hall : ∀ n < 256, (hexPadded 2 n).map Char.toUpper =
      [(Nat.digitChar (n / 16)).toUpper, (Nat.digitChar (n % 16)).toUpper] ∧
      readHexPair? (Nat.digitChar (n / 16)).toUpper (Nat.digitChar (n % 16)).toUpper =
        some (n : Int) := by
    decide +kernel
  exact ⟨_, _, hall b.toNat b.toNat_lt⟩

theorem hexPairs?_hexBytes (bs : List UInt8) :
    hexPairs? (bs.flatMap hexByte) = some (bs.map fun b => (b.toNat : Int)) := by
  induction bs with
  | nil => rfl
  | cons b bs ih =>
    obtain ⟨high, low, hdigits, hread⟩ := hexByte_spec b
    rw [List.flatMap_cons, hdigits, List.cons_append, List.cons_append, List.nil_append, hexPairs?,
      hread, ih]
    rfl

theorem length_hexBytes (bs : List UInt8) : (bs.flatMap hexByte).length = 2 * bs.length := by
  induction bs with
  | nil => rfl
  | cons b bs ih =>
    obtain ⟨high, low, hdigits, -⟩ := hexByte_spec b
    rw [List.flatMap_cons, List.length_append, ih, hdigits, List.length_cons, List.length_cons,
      List.length_cons, List.length_nil]
    omega

theorem channelOfInt_toNat (name : String) (b : UInt8) : channelOfInt name b.toNat = .ok b := by
  have hlt := b.toNat_lt
  rw [channelOfInt, if_pos ⟨by omega, by omega⟩, Int.toNat_natCast, UInt8.ofNat_toNat]

theorem Rgb.ofInts_toNat (c : Rgb) :
    Rgb.ofInts c.red.toNat c.green.toNat c.blue.toNat = .ok c := by
  rw [Rgb.ofInts, channelOfInt_toNat, channelOfInt_toNat, channelOfInt_toNat]
  rfl

/-! ### Single colors -/

/-- Three or four channels after a number sign. -/
theorem readColorText_hexBytes {bs : List UInt8} (hlength : bs.length = 3 ∨ bs.length = 4) :
    readColorText ('#' :: bs.flatMap hexByte) =
      Color.plain <$> PlainColor.ofChannels (bs.map fun b => (b.toNat : Int)) := by
  have hall : ('#' :: upperHexDigits).all (fun c => isBlank c = false ∧ c ≠ ':' ∧ c ≠ ';') = true :=
    by decide
  have hchars : ∀ c ∈ '#' :: bs.flatMap hexByte, isBlank c = false ∧ c ≠ ':' ∧ c ≠ ';' := by
    intro c hc
    refine of_decide_eq_true (List.all_eq_true.1 hall c ?_)
    rcases List.mem_cons.1 hc with rfl | hc
    · exact List.mem_cons_self
    · obtain ⟨b, -, hc⟩ := List.mem_flatMap.1 hc
      exact List.mem_cons_of_mem _ (mem_hexByte hc)
  have hdigits : (bs.flatMap hexByte).length = 6 ∨ (bs.flatMap hexByte).length = 8 := by
    rw [length_hexBytes]
    omega
  rw [readColorText,
    if_neg (not_or.2 ⟨fun h => (hchars _ h).2.1 rfl, fun h => (hchars _ h).2.2 rfl⟩),
    readPlainColor, strip, trim_eq_self_of_forall fun c hc => (hchars c hc).1]
  change Color.plain <$> readHexColor _ (bs.flatMap hexByte) = _
  rw [readHexColor, if_pos hdigits, hexPairs?_hexBytes]

theorem Rgb.readColorText_chars (c : Rgb) : readColorText c.chars = .ok (.plain (.rgb c)) := by
  have hchars : c.chars = '#' :: [c.red, c.green, c.blue].flatMap hexByte := by
    simp [Rgb.chars]
  rw [hchars, readColorText_hexBytes (.inl rfl)]
  simp only [List.map_cons, List.map_nil, PlainColor.ofChannels, c.ofInts_toNat]
  rfl

theorem Rgb.readColorText_alpha (c : Rgb) (a : UInt8) :
    readColorText (c.chars ++ hexByte a) = .ok (.plain (.rgba c a)) := by
  have hchars : c.chars ++ hexByte a = '#' :: [c.red, c.green, c.blue, a].flatMap hexByte := by
    simp [Rgb.chars]
  rw [hchars, readColorText_hexBytes (.inr rfl)]
  simp only [List.map_cons, List.map_nil, PlainColor.ofChannels, c.ofInts_toNat,
    channelOfInt_toNat]
  rfl

theorem ColorName.readColorText_name (c : ColorName) :
    readColorText c.name.toList = .ok (.plain (.named c)) := by
  obtain ⟨hid, hlower⟩ := c.spec
  obtain ⟨-, hbare⟩ := isBareChar_of_isIdentifier hid
  have hnot : ∀ d, isBareChar d = false → d ∉ c.name.toList := fun d => not_mem_of_forall hbare
  have hname : ColorName.of c.name = .ok c := by
    have hlower' : lower c.name = c.name := by rw [lower, hlower, String.ofList_toList]
    unfold ColorName.of
    simp only [hlower', c.known, dite_true]
  rw [readColorText, if_neg (not_or.2 ⟨hnot _ rfl, hnot _ rfl⟩), readPlainColor, strip,
    trim_eq_self_of_forall fun d hd => not_isBlank_of_isBareChar (hbare d hd)]
  split
  · rename_i digits heq
    exact absurd (heq ▸ List.mem_cons_self) (hnot '#' rfl)
  · rw [if_neg (not_or.2 ⟨hnot _ rfl, hnot _ rfl⟩), String.ofList_toList, hname]
    rfl

/-- **What a color is written with is read as a color that is written in the same way.** -/
theorem PlainColor.readColor_render {c : PlainColor} {text : String} (h : c.render = .ok text) :
    ∃ d : PlainColor, readColor (.text text) = .ok (.plain d) ∧ d.render = .ok text := by
  cases c with
  | rgb c =>
    obtain rfl : c.render = text := Except.ok.inj h
    refine ⟨.rgb c, ?_, rfl⟩
    rw [readColor, Rgb.render, String.toList_ofList, c.readColorText_chars]
  | rgba c a =>
    obtain rfl : String.ofList (c.chars ++ hexByte a) = text := Except.ok.inj h
    refine ⟨.rgba c a, ?_, rfl⟩
    rw [readColor, String.toList_ofList, c.readColorText_alpha]
  | hsv c =>
    obtain ⟨color, -, rfl⟩ := Outcome.map_eq_ok.1 h
    refine ⟨.rgb color, ?_, rfl⟩
    rw [readColor, Rgb.render, String.toList_ofList, color.readColorText_chars]
  | named c =>
    obtain rfl : c.name = text := Except.ok.inj h
    exact ⟨.named c, c.readColorText_name, rfl⟩

end DotWriter
