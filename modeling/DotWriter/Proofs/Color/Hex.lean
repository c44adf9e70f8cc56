import DotWriter.Proofs.Color.Reading
import DotWriter.Proofs.Value.Faults

/-!
# Colors in hexadecimal digits

After a number sign stand pairs of characters, each of which is read as a whole number in base
sixteen.  The reader of whole numbers takes more than hexadecimal digits.

* `IsHexDigit` : the hexadecimal digits, `IsStray` : what else may stand in a pair;
* `ReadsByte` : what a pair is read as, and `readHexPair?_byte_iff`, which says that this is all;
* `ReadsBytes` and `readHexColor_eq_ok_iff` : **a text is read as channels if it consists of three
  or four pairs that stand for bytes**;
* `exists_readsBytes` : **hexadecimal digits are read as the bytes that are written with them**;
* `HexLaws` and `readColor_hexLaws` : what texts with a number sign are colors, and how these are
  written.
-/

namespace DotWriter

open Outcome

/-! ### Digits -/

/-- The hexadecimal digits, in either case. -/
def IsHexDigit (c : Char) : Prop :=
  ('0' ≤ c ∧ c ≤ '9') ∨ ('a' ≤ c ∧ c ≤ 'f') ∨ ('A' ≤ c ∧ c ≤ 'F')

instance (c : Char) : Decidable (IsHexDigit c) := inferInstanceAs (Decidable (_ ∨ _))

/-- The code points of blanks. -/
def blankCodes : List Nat :=
  [9, 10, 11, 12, 13, 28, 29, 30, 31, 32, 0x85, 0xA0, 0x1680, 0x2000, 0x2001, 0x2002, 0x2003, 0x2004,
    0x2005, 0x2006, 0x2007, 0x2008, 0x2009, 0x200A, 0x2028, 0x2029, 0x202F, 0x205F, 0x3000]

/-- No blank is a digit. -/
theorem hexValue?_of_isBlank {c : Char} (h : isBlank c = true) : hexValue? c = none := by
  have hall : ∀ n ∈ blankCodes, hexValue? (Char.ofNat n) = none := by decide
  have hmem : c.toNat ∈ blankCodes := by
    simp only [isBlank, Bool.or_eq_true, Bool.and_eq_true, decide_eq_true_eq, beq_iff_eq] at h
    simp only [blankCodes, List.mem_cons, List.not_mem_nil, or_false]
    omega
  rw [← Char.ofNat_toNat c]
  exact hall _ hmem

theorem digitValue?_lt {c : Char} {n : Nat} (h : digitValue? c = some n) : n < 10 := by
  unfold digitValue? at h
  split_ifs at h with hascii hdigit
  · cases h
    rw [Char.isDigit, Bool.and_eq_true, decide_eq_true_eq, decide_eq_true_eq] at hdigit
    have hle : c.toNat ≤ 57 := UInt32.le_iff_toNat_le.1 hdigit.2
    omega
  · obtain ⟨first, hfirst, rfl⟩ := Option.map_eq_some_iff.1 h
    have hrange := List.find?_some hfirst
    simp only [Bool.and_eq_true, decide_eq_true_eq] at hrange
    omega

theorem hexValue?_lt {c : Char} {n : Nat} (h : hexValue? c = some n) : n < 16 := by
  unfold hexValue? at h
  split_ifs at h with hlower hupper
  · cases h
    have hle : c.toNat ≤ 102 := UInt32.le_iff_toNat_le.1 hlower.2
    omega
  · cases h
    have hle : c.toNat ≤ 70 := UInt32.le_iff_toNat_le.1 hupper.2
    omega
  · have := digitValue?_lt h
    omega

theorem IsHexDigit.lt {c : Char} (h : IsHexDigit c) : c.toNat < 128 := by
  rcases h with ⟨-, h⟩ | ⟨-, h⟩ | ⟨-, h⟩
  · exact lt_of_le_of_lt (UInt32.le_iff_toNat_le.1 h) (by decide)
  · exact lt_of_le_of_lt (UInt32.le_iff_toNat_le.1 h) (by decide)
  · exact lt_of_le_of_lt (UInt32.le_iff_toNat_le.1 h) (by decide)

/-- Among the first code points only the hexadecimal digits have a value. -/
theorem isHexDigit_iff {c : Char} :
    IsHexDigit c ↔ c.toNat < 128 ∧ (hexValue? c).isSome = true := by
  have hall : ∀ n < 128, (IsHexDigit (Char.ofNat n) ↔ (hexValue? (Char.ofNat n)).isSome = true) := by
    decide
  constructor
  · intro h
    have hc := hall _ h.lt
    rw [Char.ofNat_toNat] at hc
    exact ⟨h.lt, hc.1 h⟩
  · rintro ⟨hlt, h⟩
    have hc := hall _ hlt
    rw [Char.ofNat_toNat] at hc
    exact hc.2 h

/-- A hexadecimal digit in upper case is the digit of its value. -/
theorem IsHexDigit.toUpper_eq {c : Char} (h : IsHexDigit c) {n : Nat} (hn : hexValue? c = some n) :
    (Nat.digitChar n).toUpper = c.toUpper := by
  have hall : ∀ k < 128, ∀ n ∈ hexValue? (Char.ofNat k),
      (Nat.digitChar n).toUpper = (Char.ofNat k).toUpper := by decide
  have hc := hall _ h.lt
  rw [Char.ofNat_toNat] at hc
  exact hc n hn

/-! ### Two characters -/

theorem readSign_cons {c : Char} (hminus : c ≠ '-') (hplus : c ≠ '+') (cs : List Char) :
    readSign (c :: cs) = (false, c :: cs) := by
  unfold readSign
  split
  · rename_i heq
    exact absurd (List.cons.inj heq).1 hminus
  · rename_i heq
    exact absurd (List.cons.inj heq).1 hplus
  · rfl

/-- A sign alone is no number. -/
theorem readHexPair?_of_trim_one {high low c : Char}
    (h : trim isNumeralBlank [high, low] = [c]) :
    readHexPair? high low = (hexValue? c).map fun (n : Nat) => (n : Int) := by
  rw [readHexPair?, readWhole?, h]
  by_cases hminus : c = '-'
  · subst hminus
    rfl
  · by_cases hplus : c = '+'
    · subst hplus
      rfl
    · rw [readSign_cons hminus hplus]
      cases hc : hexValue? c <;> simp [digitRun, digitTail, ofDigits, hc]

theorem readHexPair?_of_trim_two {high low : Char}
    (h : trim isNumeralBlank [high, low] = [high, low]) :
    readHexPair? high low =
      if high = '-' then (hexValue? low).map fun (n : Nat) => -(n : Int)
      else if high = '+' then (hexValue? low).map fun (n : Nat) => (n : Int)
      else do return ((16 * (← hexValue? high) + (← hexValue? low) : Nat) : Int) := by
  rw [readHexPair?, readWhole?, h]
  split_ifs with hminus hplus
  · subst hminus
    cases hlow : hexValue? low <;> simp [readSign, digitRun, digitTail, ofDigits, hlow]
  · subst hplus
    cases hlow : hexValue? low <;> simp [readSign, digitRun, digitTail, ofDigits, hlow]
  · rw [readSign_cons hminus hplus]
    cases hhigh : hexValue? high with
    | none => simp [digitRun, hhigh]
    | some m =>
      cases hlow : hexValue? low with
      | none => simp [digitRun, digitTail, hhigh, hlow]
      | some n => simp [digitRun, digitTail, ofDigits, hhigh, hlow, Nat.mul_comm]

/-- What two characters are read as: two digits, or one digit with a blank or a sign.  A minus sign
is read before a zero alone. -/
inductive ReadsByte : Char → Char → UInt8 → Prop
  | digits {high low : Char} {m n : Nat} (hm : hexValue? high = some m)
    (hn : hexValue? low = some n) : ReadsByte high low (UInt8.ofNat (16 * m + n))
  | blankFirst {high low : Char} {n : Nat} (hb : isNumeralBlank high = true)
    (hn : hexValue? low = some n) : ReadsByte high low (UInt8.ofNat n)
  | blankLast {high low : Char} {m : Nat} (hm : hexValue? high = some m)
    (hb : isNumeralBlank low = true) : ReadsByte high low (UInt8.ofNat m)
  | plus {low : Char} {n : Nat} (hn : hexValue? low = some n) : ReadsByte '+' low (UInt8.ofNat n)
  | minus {low : Char} (hn : hexValue? low = some 0) : ReadsByte '-' low 0

/-- A digit is neither a blank nor a sign. -/
theorem digit_not_mark {c : Char} {n : Nat} (h : hexValue? c = some n) :
    isNumeralBlank c = false ∧ c ≠ '-' ∧ c ≠ '+' := by
  refine ⟨?_, ?_, ?_⟩
  · refine isNumeralBlank_of_isBlank (Bool.eq_false_iff.2 fun hblank => ?_)
    rw [hexValue?_of_isBlank hblank] at h
    cases h
  · rintro rfl
    cases h
  · rintro rfl
    cases h

section trim

variable {high low : Char}

theorem trim_none (hhigh : isNumeralBlank high = true) (hlow : isNumeralBlank low = true) :
    trim isNumeralBlank [high, low] = [] := by
  simp [trim, hhigh, hlow]

theorem trim_first (hhigh : isNumeralBlank high = true) (hlow : isNumeralBlank low = false) :
    trim isNumeralBlank [high, low] = [low] := by
  simp [trim, hhigh, hlow]

theorem trim_last (hhigh : isNumeralBlank high = false) (hlow : isNumeralBlank low = true) :
    trim isNumeralBlank [high, low] = [high] := by
  simp [trim, hhigh, hlow]

theorem trim_both (hhigh : isNumeralBlank high = false) (hlow : isNumeralBlank low = false) :
    trim isNumeralBlank [high, low] = [high, low] := by
  simp [trim, hhigh, hlow]

end trim

theorem readHexPair?_byte_iff {high low : Char} {b : UInt8} :
    readHexPair? high low = some (b.toNat : Int) ↔ ReadsByte high low b := by
  have hofNat : ∀ {n : Nat}, (n : Int) = b.toNat → b = UInt8.ofNat n := by
    intro n h
    rw [Int.ofNat_inj.1 h, UInt8.ofNat_toNat]
  constructor
  · intro h
    -- what is left after trimming depends on which of the two are blanks
    cases hhigh : isNumeralBlank high <;> cases hlow : isNumeralBlank low
    · rw [readHexPair?_of_trim_two (trim_both hhigh hlow)] at h
      split_ifs at h with hminus hplus
      · obtain ⟨n, hn, heq⟩ := Option.map_eq_some_iff.1 h
        -- no other negative number is a byte
        have hzero : n = 0 := by omega
        subst hzero hminus
        rw [hofNat (n := 0) (by simpa using heq)]
        exact .minus hn
      · obtain ⟨n, hn, heq⟩ := Option.map_eq_some_iff.1 h
        rw [hplus, hofNat heq]
        exact .plus hn
      · obtain ⟨m, hm, h⟩ := Option.bind_eq_some_iff.1 h
        obtain ⟨n, hn, h⟩ := Option.bind_eq_some_iff.1 h
        rw [hofNat (Option.some.inj h)]
        exact .digits hm hn
    · rw [readHexPair?_of_trim_one (trim_last hhigh hlow)] at h
      obtain ⟨m, hm, heq⟩ := Option.map_eq_some_iff.1 h
      rw [hofNat heq]
      exact .blankLast hm hlow
    · rw [readHexPair?_of_trim_one (trim_first hhigh hlow)] at h
      obtain ⟨n, hn, heq⟩ := Option.map_eq_some_iff.1 h
      rw [hofNat heq]
      exact .blankFirst hhigh hn
    · rw [readHexPair?, readWhole?, trim_none hhigh hlow] at h
      cases h
  · intro h
    cases h with
    | digits hm hn =>
      obtain ⟨hhigh, hminus, hplus⟩ := digit_not_mark hm
      obtain ⟨hlow, -⟩ := digit_not_mark hn
      have hlt := hexValue?_lt hm
      have hlt' := hexValue?_lt hn
      rw [readHexPair?_of_trim_two (trim_both hhigh hlow), if_neg hminus, if_neg hplus, hm, hn,
        UInt8.toNat_ofNat_of_lt' (show _ < 256 by omega)]
      rfl
    | blankFirst hb hn =>
      have hlt := hexValue?_lt hn
      rw [readHexPair?_of_trim_one (trim_first hb (digit_not_mark hn).1), hn,
        UInt8.toNat_ofNat_of_lt' (show _ < 256 by omega)]
      rfl
    | blankLast hm hb =>
      have hlt := hexValue?_lt hm
      rw [readHexPair?_of_trim_one (trim_last (digit_not_mark hm).1 hb), hm,
        UInt8.toNat_ofNat_of_lt' (show _ < 256 by omega)]
      rfl
    | plus hn =>
      have hlt := hexValue?_lt hn
      rw [readHexPair?_of_trim_two (trim_both rfl (digit_not_mark hn).1), if_neg (by decide),
        if_pos rfl, hn, UInt8.toNat_ofNat_of_lt' (show _ < 256 by omega)]
      rfl
    | minus hn =>
      rw [readHexPair?_of_trim_two (trim_both rfl (digit_not_mark hn).1), if_pos rfl, hn]
      rfl

example : readHexPair? '+' '\u0663' = some 3 := by decide

/-! ### Channels -/

/-- What the pairs of a text are read as. -/
inductive ReadsBytes : List Char → List UInt8 → Prop
  | nil : ReadsBytes [] []
  | cons {high low : Char} {b : UInt8} {digits : List Char} {bs : List UInt8}
    (h : ReadsByte high low b) (hs : ReadsBytes digits bs) :
    ReadsBytes (high :: low :: digits) (b :: bs)

theorem hexPairs?_bytes_iff {digits : List Char} {bs : List UInt8} :
    hexPairs? digits = some (bs.map fun b => (b.toNat : Int)) ↔ ReadsBytes digits bs := by
  fun_induction hexPairs? digits generalizing bs with
  | case1 high low digits ih =>
    constructor
    · intro h
      obtain ⟨v, hv, h⟩ := Option.bind_eq_some_iff.1 h
      obtain ⟨vs, hvs, h⟩ := Option.bind_eq_some_iff.1 h
      cases bs with
      | nil => cases h
      | cons b bs =>
        cases h
        exact .cons (readHexPair?_byte_iff.1 hv) (ih.1 hvs)
    · rintro (_ | ⟨h, hs⟩)
      rw [readHexPair?_byte_iff.2 h, ih.2 hs]
      rfl
  | case2 =>
    constructor
    · intro h
      cases bs with
      | nil => exact .nil
      | cons b bs => cases h
    · rintro ⟨⟩
      rfl
  | case3 c =>
    constructor
    · rintro ⟨⟩
    · rintro ⟨⟩

/-- The color with the given channels. -/
def PlainColor.ofBytes? : List UInt8 → Option PlainColor
  | [r, g, b] => some (.rgb ⟨r, g, b⟩)
  | [r, g, b, a] => some (.rgba ⟨r, g, b⟩ a)
  | _ => none

theorem channelOfInt_eq_ok_iff {name : String} {n : Int} {b : UInt8} :
    channelOfInt name n = .ok b ↔ n = b.toNat := by
  constructor
  · intro h
    unfold channelOfInt at h
    split_ifs at h with hn
    cases h
    rw [UInt8.toNat_ofNat_of_lt' (show _ < 256 by omega), Int.toNat_of_nonneg hn.1]
  · rintro rfl
    exact channelOfInt_toNat name b

theorem Rgb.ofInts_eq_ok_iff {r g b : Int} {c : Rgb} :
    Rgb.ofInts r g b = .ok c ↔ r = c.red.toNat ∧ g = c.green.toNat ∧ b = c.blue.toNat := by
  constructor
  · intro h
    obtain ⟨_, hr, h⟩ := bind_eq_ok.1 h
    obtain ⟨_, hg, h⟩ := bind_eq_ok.1 h
    obtain ⟨_, hb, h⟩ := bind_eq_ok.1 h
    cases h
    exact ⟨channelOfInt_eq_ok_iff.1 hr, channelOfInt_eq_ok_iff.1 hg, channelOfInt_eq_ok_iff.1 hb⟩
  · rintro ⟨rfl, rfl, rfl⟩
    exact c.ofInts_toNat

theorem PlainColor.ofChannels_eq_ok_iff {vs : List Int} {c : PlainColor} :
    ofChannels vs = .ok c ↔
      ∃ bs : List UInt8, vs = bs.map (fun b => (b.toNat : Int)) ∧ ofBytes? bs = some c := by
  constructor
  · intro h
    unfold ofChannels at h
    split at h
    · obtain ⟨color, hcolor, rfl⟩ := map_eq_ok.1 h
      obtain ⟨rfl, rfl, rfl⟩ := Rgb.ofInts_eq_ok_iff.1 hcolor
      exact ⟨[color.red, color.green, color.blue], rfl, rfl⟩
    · obtain ⟨color, hcolor, hrest⟩ := bind_eq_ok.1 h
      obtain ⟨alpha, halpha, hlast⟩ := bind_eq_ok.1 hrest
      cases hlast
      obtain ⟨rfl, rfl, rfl⟩ := Rgb.ofInts_eq_ok_iff.1 hcolor
      obtain rfl := channelOfInt_eq_ok_iff.1 halpha
      exact ⟨[color.red, color.green, color.blue, alpha], rfl, rfl⟩
    · cases h
  · rintro ⟨bs, rfl, h⟩
    unfold ofBytes? at h
    split at h
    · cases h
      exact map_eq_ok.2 ⟨_, Rgb.ofInts_eq_ok_iff.2 ⟨rfl, rfl, rfl⟩, rfl⟩
    · cases h
      exact bind_eq_ok.2 ⟨_, Rgb.ofInts_eq_ok_iff.2 ⟨rfl, rfl, rfl⟩,
        bind_eq_ok.2 ⟨_, channelOfInt_eq_ok_iff.2 rfl, rfl⟩⟩
    · cases h

/-- The channels are written in order. -/
theorem PlainColor.render_ofBytes? {bs : List UInt8} {c : PlainColor} (h : ofBytes? bs = some c) :
    c.render = .ok (String.ofList ('#' :: bs.flatMap hexByte)) := by
  unfold ofBytes? at h
  split at h
  · cases h
    simp [render, Rgb.render, Rgb.chars]
  · cases h
    simp [render, Rgb.chars]
  · cases h

theorem ReadsBytes.length_eq {digits : List Char} {bs : List UInt8} (h : ReadsBytes digits bs) :
    digits.length = 2 * bs.length := by
  induction h with
  | nil => rfl
  | cons _ _ ih => simp only [List.length_cons, ih, Nat.mul_add]

theorem PlainColor.ofBytes?_rgb {bs : List UInt8} (h : bs.length = 3) :
    ∃ color, ofBytes? bs = some (.rgb color) := by
  obtain ⟨r, g, b, rfl⟩ := List.length_eq_three.1 h
  exact ⟨⟨r, g, b⟩, rfl⟩

theorem PlainColor.ofBytes?_rgba {bs : List UInt8} (h : bs.length = 4) :
    ∃ color alpha, ofBytes? bs = some (.rgba color alpha) := by
  obtain ⟨r, rest, rfl⟩ := List.exists_cons_of_length_eq_add_one h
  obtain ⟨g, b, a, rfl⟩ := List.length_eq_three.1 (Nat.succ.inj h)
  exact ⟨⟨r, g, b⟩, a, rfl⟩

theorem PlainColor.ofBytes?_isSome_iff {bs : List UInt8} :
    (∃ c, ofBytes? bs = some c) ↔ bs.length = 3 ∨ bs.length = 4 := by
  constructor
  · rintro ⟨c, h⟩
    unfold ofBytes? at h
    split at h
    · exact .inl rfl
    · exact .inr rfl
    · cases h
  · rintro (h | h)
    · obtain ⟨color, hcolor⟩ := ofBytes?_rgb h
      exact ⟨_, hcolor⟩
    · obtain ⟨color, alpha, hcolor⟩ := ofBytes?_rgba h
      exact ⟨_, hcolor⟩

/-- **A text is read as channels if it consists of three or four pairs that stand for bytes.** -/
theorem readHexColor_eq_ok_iff {shown digits : List Char} {c : PlainColor} :
    readHexColor shown digits = .ok c ↔
      ∃ bs, ReadsBytes digits bs ∧ PlainColor.ofBytes? bs = some c := by
  unfold readHexColor
  constructor
  · intro h
    split_ifs at h
    · split at h
      · rename_i vs hvs
        obtain ⟨bs, rfl, hbs⟩ := PlainColor.ofChannels_eq_ok_iff.1 h
        exact ⟨bs, hexPairs?_bytes_iff.1 hvs, hbs⟩
      · cases h
  · rintro ⟨bs, hread, hbs⟩
    have hlength := PlainColor.ofBytes?_isSome_iff.1 ⟨c, hbs⟩
    rw [if_pos (by rw [hread.length_eq]; omega), hexPairs?_bytes_iff.2 hread]
    exact PlainColor.ofChannels_eq_ok_iff.2 ⟨bs, rfl, hbs⟩

/-! ### Texts of hexadecimal digits -/

theorem hexByte_ofNat {m n : Nat} (hm : m < 16) (hn : n < 16) :
    hexByte (UInt8.ofNat (16 * m + n)) = [(Nat.digitChar m).toUpper, (Nat.digitChar n).toUpper] := by
  have hall : ∀ m < 16, ∀ n < 16, hexByte (UInt8.ofNat (16 * m + n)) =
      [(Nat.digitChar m).toUpper, (Nat.digitChar n).toUpper] := by decide +kernel
  exact hall m hm n hn

/-- Two digits are read as the byte that is written with them. -/
theorem IsHexDigit.readsByte {high low : Char} (hhigh : IsHexDigit high) (hlow : IsHexDigit low) :
    ∃ b, ReadsByte high low b ∧ hexByte b = [high.toUpper, low.toUpper] := by
  obtain ⟨m, hm⟩ := Option.isSome_iff_exists.1 (isHexDigit_iff.1 hhigh).2
  obtain ⟨n, hn⟩ := Option.isSome_iff_exists.1 (isHexDigit_iff.1 hlow).2
  refine ⟨_, .digits hm hn, ?_⟩
  rw [hexByte_ofNat (hexValue?_lt hm) (hexValue?_lt hn), hhigh.toUpper_eq hm, hlow.toUpper_eq hn]

/-- An even number of digits is read as the bytes that are written with them. -/
theorem exists_readsBytes {digits : List Char} (hdigits : ∀ c ∈ digits, IsHexDigit c) {n : Nat}
    (hlength : digits.length = 2 * n) :
    ∃ bs, ReadsBytes digits bs ∧ bs.flatMap hexByte = digits.map Char.toUpper := by
  induction n generalizing digits with
  | zero =>
    obtain rfl := List.length_eq_zero_iff.1 hlength
    exact ⟨[], .nil, rfl⟩
  | succ n ih =>
    match digits, hlength with
    | high :: low :: digits, hlength =>
      simp only [List.length_cons] at hlength
      simp only [List.forall_mem_cons] at hdigits
      obtain ⟨b, hb, hwritten⟩ := hdigits.1.readsByte hdigits.2.1
      obtain ⟨bs, hbs, hrest⟩ := ih hdigits.2.2 (by omega)
      refine ⟨b :: bs, .cons hb hbs, ?_⟩
      rw [List.flatMap_cons, hwritten, hrest]
      rfl

/-- What is read in a pair besides hexadecimal digits: a sign, a blank, or a digit of another
script. -/
def IsStray (c : Char) : Prop :=
  c = '+' ∨ c = '-' ∨ isNumeralBlank c = true ∨ (128 ≤ c.toNat ∧ (digitValue? c).isSome = true)

theorem hexDigit_or_stray {c : Char} {n : Nat} (h : hexValue? c = some n) :
    IsHexDigit c ∨ IsStray c := by
  by_cases hlt : c.toNat < 128
  · exact .inl (isHexDigit_iff.2 ⟨hlt, Option.isSome_of_mem h⟩)
  · unfold hexValue? at h
    split_ifs at h with hlower hupper
    · exact .inl (.inr (.inl hlower))
    · exact .inl (.inr (.inr hupper))
    · exact .inr (.inr (.inr (.inr ⟨not_lt.1 hlt, Option.isSome_of_mem h⟩)))

theorem ReadsByte.isHexDigit_or_isStray {high low : Char} {b : UInt8} (h : ReadsByte high low b) :
    (IsHexDigit high ∨ IsStray high) ∧ (IsHexDigit low ∨ IsStray low) := by
  cases h with
  | digits hm hn => exact ⟨hexDigit_or_stray hm, hexDigit_or_stray hn⟩
  | blankFirst hb hn =>
    exact ⟨.inr (.inr (.inr (.inl hb))), hexDigit_or_stray hn⟩
  | blankLast hm hb => exact ⟨hexDigit_or_stray hm, .inr (.inr (.inr (.inl hb)))⟩
  | plus hn => exact ⟨.inr (.inl rfl), hexDigit_or_stray hn⟩
  | minus hn => exact ⟨.inr (.inr (.inl rfl)), hexDigit_or_stray hn⟩

theorem ReadsBytes.isHexDigit_or_isStray {digits : List Char} {bs : List UInt8}
    (h : ReadsBytes digits bs) : ∀ c ∈ digits, IsHexDigit c ∨ IsStray c := by
  induction h with
  | nil => exact fun c hc => absurd hc List.not_mem_nil
  | cons hb _ ih =>
    rw [List.forall_mem_cons, List.forall_mem_cons]
    exact ⟨hb.isHexDigit_or_isStray.1, hb.isHexDigit_or_isStray.2, ih⟩

/-! ### Colors after a number sign -/

theorem readHexColor_failsOnly (shown digits : List Char) :
    OnlyValueFaults (readHexColor shown digits) := by
  unfold readHexColor
  split_ifs
  · split
    · unfold PlainColor.ofChannels
      split
      · exact (Rgb.ofInts_failsOnly _ _ _).map _
      · exact (Rgb.ofInts_failsOnly _ _ _).bind fun _ _ =>
          (channelOfInt_failsOnly _ _).bind fun _ _ => .ok _
      · exact .error rfl
    · exact .error rfl
  · exact .error rfl

/-- The laws of a text that consists of a number sign and the given characters. -/
structure HexLaws (s : String) (digits : List Char) : Prop where
  /-- It is a color if it has three or four pairs of characters, and each of them stands for a
  byte. -/
  read_iff : ∀ color, readColor (.text s) = .ok color ↔
    ∃ bs c, ReadsBytes digits bs ∧ PlainColor.ofBytes? bs = some c ∧ color = .plain c
  /-- The bytes are written with two upper-case digits each. -/
  written : ∀ color, readColor (.text s) = .ok color →
    ∃ bs, ReadsBytes digits bs ∧ color.render = .ok (String.ofList ('#' :: bs.flatMap hexByte))
  /-- Six hexadecimal digits are a color that is written with them, in upper case. -/
  six : digits.length = 6 → (∀ c ∈ digits, IsHexDigit c) → ∃ color : Rgb,
    readColor (.text s) = .ok (.plain (.rgb color)) ∧
      color.render = String.ofList ('#' :: digits.map Char.toUpper)
  /-- So are eight of them, the last two for alpha. -/
  eight : digits.length = 8 → (∀ c ∈ digits, IsHexDigit c) → ∃ (color : Rgb) (alpha : UInt8),
    readColor (.text s) = .ok (.plain (.rgba color alpha)) ∧
      (PlainColor.rgba color alpha).render = .ok (String.ofList ('#' :: digits.map Char.toUpper))
  /-- Nothing else is a color, unless a stray character is read as part of a pair. -/
  only : ∀ color, readColor (.text s) = .ok color →
    (digits.length = 6 ∨ digits.length = 8) ∧ ∀ c ∈ digits, IsHexDigit c ∨ IsStray c
  /-- Every other text is a wrong value. -/
  refused : OnlyValueFaults (readColor (.text s))

/-- **A number sign is followed by three or four pairs of characters, each of which stands for a
byte.** -/
theorem readColor_hexLaws {s : String} {digits : List Char} (hcolon : ':' ∉ s.toList)
    (hsemicolon : ';' ∉ s.toList) (hstrip : strip s.toList = '#' :: digits) : HexLaws s digits := by
  have hread : readColor (.text s) = Color.plain <$> readHexColor s.toList digits := by
    rw [readColor, readColorText, if_neg (not_or.2 ⟨hcolon, hsemicolon⟩), readPlainColor, hstrip]
    rfl
  have hiff : ∀ color, readColor (.text s) = .ok color ↔
      ∃ bs c, ReadsBytes digits bs ∧ PlainColor.ofBytes? bs = some c ∧ color = .plain c := by
    intro color
    rw [hread, map_eq_ok]
    constructor
    · rintro ⟨c, hc, rfl⟩
      obtain ⟨bs, hbs, hchannels⟩ := readHexColor_eq_ok_iff.1 hc
      exact ⟨bs, c, hbs, hchannels, rfl⟩
    · rintro ⟨bs, c, hbs, hchannels, rfl⟩
      exact ⟨c, readHexColor_eq_ok_iff.2 ⟨bs, hbs, hchannels⟩, rfl⟩
  refine ⟨hiff, ?written, ?six, ?eight, ?only, ?refused⟩
  case written =>
    intro color h
    obtain ⟨bs, c, hbs, hchannels, rfl⟩ := (hiff color).1 h
    exact ⟨bs, hbs, PlainColor.render_ofBytes? hchannels⟩
  case six =>
    intro hlength hdigits
    obtain ⟨bs, hbs, hwritten⟩ := exists_readsBytes (n := 3) hdigits hlength
    have hcount : bs.length = 3 := by
      have := hbs.length_eq
      omega
    obtain ⟨color, hcolor⟩ := PlainColor.ofBytes?_rgb hcount
    refine ⟨color, (hiff _).2 ⟨bs, _, hbs, hcolor, rfl⟩, ?_⟩
    rw [← hwritten]
    exact Except.ok.inj (PlainColor.render_ofBytes? hcolor)
  case eight =>
    intro hlength hdigits
    obtain ⟨bs, hbs, hwritten⟩ := exists_readsBytes (n := 4) hdigits hlength
    have hcount : bs.length = 4 := by
      have := hbs.length_eq
      omega
    obtain ⟨color, alpha, hcolor⟩ := PlainColor.ofBytes?_rgba hcount
    refine ⟨color, alpha, (hiff _).2 ⟨bs, _, hbs, hcolor, rfl⟩, ?_⟩
    rw [← hwritten]
    exact PlainColor.render_ofBytes? hcolor
  case only =>
    intro color h
    obtain ⟨bs, c, hbs, hchannels, rfl⟩ := (hiff color).1 h
    have hlength := hbs.length_eq
    have hcount := PlainColor.ofBytes?_isSome_iff.1 ⟨c, hchannels⟩
    exact ⟨by omega, hbs.isHexDigit_or_isStray⟩
  case refused =>
    rw [hread]
    exact (readHexColor_failsOnly _ _).map _

theorem signedPairs_hexLaws :
    ':' ∉ "#+1+2+3".toList ∧ ';' ∉ "#+1+2+3".toList ∧
      strip "#+1+2+3".toList = '#' :: "+1+2+3".toList ∧ HexLaws "#+1+2+3" "+1+2+3".toList :=
  ⟨by decide, by decide, by decide,
    readColor_hexLaws (by decide) (by decide) (by decide)⟩

/-- Not every character of a color is a hexadecimal digit: a plus sign may take the place of the
first one in a pair. -/
theorem readColor_not_only_hexDigits :
    ¬ ∀ (s : String) (digits : List Char), ':' ∉ s.toList → ';' ∉ s.toList →
      strip s.toList = '#' :: digits → ((∃ color, readColor (.text s) = .ok color) ↔
        (digits.length = 6 ∨ digits.length = 8) ∧ ∀ c ∈ digits, IsHexDigit c) := by
  intro h
  have hiff := h "#+1+2+3" "+1+2+3".toList (by decide) (by decide) (by decide)
  have hread : readColor (.text "#+1+2+3") = .ok (.plain (.rgb ⟨1, 2, 3⟩)) := by decide +kernel
  exact absurd ((hiff.1 ⟨_, hread⟩).2 '+' (by decide)) (by decide)

end DotWriter
