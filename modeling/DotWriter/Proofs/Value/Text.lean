import DotWriter.Value
import Mathlib.Tactic.SplitIfs

/-!
# The texts of numbers and of quoted strings

* `asciiChars` : the characters of a text, read off its bytes;
* `isNumberChar` : numbers are written with digits, a sign and a point;
* `flatMap_quoteChar_eq_number` : a string that is quoted like the text of a number is that text.
-/

namespace DotWriter

/-! ### Bytes

The characters of a literal are found much faster from its bytes than by decoding it. -/

/-- The bytes of a text as characters. -/
def asciiChars (s : String) : List Char :=
  s.toByteArray.data.toList.map fun b => Char.ofNat b.toNat

/-- Whether every byte of a text is an ASCII character. -/
def isAscii (s : String) : Bool := s.toByteArray.data.toList.all fun b => b.toNat < 128

theorem utf8EncodeChar_of_lt {c : Char} (h : c.toNat < 128) :
    String.utf8EncodeChar c = [UInt8.ofNat c.toNat] := by
  have hle : c.val.toNat ≤ 0x7f := Nat.le_of_lt_succ h
  rw [String.utf8EncodeChar]
  exact if_pos hle

/-- Every other character takes a byte beyond ASCII. -/
theorem exists_byte_of_le {c : Char} (h : 128 ≤ c.toNat) :
    ∃ b ∈ String.utf8EncodeChar c, 128 ≤ b.toNat := by
  have hnot : ¬ c.val.toNat ≤ 0x7f := Nat.not_le.2 h
  unfold String.utf8EncodeChar
  simp only [if_neg hnot]
  -- the first byte tells how many follow
  split_ifs
  all_goals
    refine ⟨_, List.mem_cons_self, ?_⟩
    rw [UInt8.toNat_ofNat']
    omega

theorem toList_eq_asciiChars {s : String} (h : isAscii s = true) : s.toList = asciiChars s := by
  have hbytes : s.toByteArray.data.toList = s.toList.flatMap String.utf8EncodeChar := by
    rw [← String.utf8Encode_toList, List.utf8Encode, List.data_toByteArray]
  rw [isAscii, hbytes, List.all_eq_true] at h
  rw [asciiChars, hbytes]
  generalize s.toList = cs at h
  induction cs with
  | nil => rfl
  | cons c cs ih =>
    rw [List.flatMap_cons] at h ⊢
    have hc : c.toNat < 128 := by
      refine Nat.lt_of_not_le fun hlarge => ?_
      obtain ⟨b, hb, hle⟩ := exists_byte_of_le hlarge
      have := h b (List.mem_append_left _ hb)
      simp only [decide_eq_true_eq] at this
      omega
    have hbyte : (UInt8.ofNat c.toNat).toNat = c.toNat := by
      rw [UInt8.toNat_ofNat']
      omega
    have hchar : Char.ofNat (UInt8.ofNat c.toNat).toNat = c := by
      rw [hbyte, Char.ofNat_toNat]
    have htail := ih fun b hb => h b (List.mem_append_right _ hb)
    rw [utf8EncodeChar_of_lt hc, List.map_append, ← htail]
    simp only [List.map_cons, List.map_nil, hchar]
    rfl

/-! ### Numbers -/

/-- The characters that numbers are written with. -/
def isNumberChar (c : Char) : Bool := c.isDigit || c == '-' || c == '.'

/-- A text that is written like a number. -/
def IsNumberText (cs : List Char) : Prop := ∀ c ∈ cs, isNumberChar c = true

theorem isNumberChar_of_isDigit {c : Char} (h : c.isDigit = true) : isNumberChar c = true := by
  simp [isNumberChar, h]

theorem isNumberText_toDigits (n : Nat) : IsNumberText (Nat.toDigits 10 n) := fun _ h =>
  isNumberChar_of_isDigit (Nat.isDigit_of_mem_toDigits (by decide) (by decide) h)

theorem isNumberText_int (n : Int) : IsNumberText (toString n).toList := by
  have hnat : ∀ m : Nat, IsNumberText m.repr.toList := by
    intro m
    rw [Nat.repr_eq_ofList_toDigits, String.toList_ofList]
    exact isNumberText_toDigits m
  rw [Int.toString_eq_repr, Int.repr_eq_if]
  split_ifs with hn
  · exact hnat _
  · intro c hc
    rw [String.toList_append] at hc
    rcases List.mem_append.1 hc with hc | hc
    · rw [List.mem_singleton.1 hc]
      rfl
    · exact hnat _ c hc

theorem isNumberText_twoDigits (n : Nat) : IsNumberText (twoDigits n) := by
  intro c hc
  have hdigit : ∀ m, (Nat.digitChar (m % 10)).isDigit = true := by
    intro m
    rw [Nat.isDigit_digitChar, decide_eq_true_eq]
    exact Nat.mod_lt m (by decide)
  rcases List.mem_cons.1 hc with rfl | hc
  · exact isNumberChar_of_isDigit (hdigit _)
  · rw [List.mem_singleton.1 hc]
    exact isNumberChar_of_isDigit (hdigit _)

theorem isNumberText_fixed (x : Double) : IsNumberText x.fixed.toList := by
  intro c hc
  rw [Double.fixed, String.toList_ofList, Double.fixedChars] at hc
  rcases List.mem_append.1 hc with hc | hc
  · rcases List.mem_append.1 hc with hc | hc
    · split at hc
      · rw [List.mem_singleton.1 hc]
        rfl
      · exact absurd hc List.not_mem_nil
    · exact isNumberText_toDigits _ c hc
  · rcases List.mem_cons.1 hc with rfl | hc
    · rfl
    · exact isNumberText_twoDigits _ c hc

/-! ### Quoted strings -/

theorem quoted_eq_iff {s t : String} :
    quoted s = quoted t ↔ s.toList.flatMap quoteChar = t.toList.flatMap quoteChar := by
  simp [quoted, quotedChars, String.ofList_inj]

theorem quoted_append_eq_iff {p s t : String} :
    quoted (p ++ s) = quoted (p ++ t) ↔ quoted s = quoted t := by
  simp [quoted_eq_iff]

theorem flatMap_quoteChar_of_isNumberText {cs : List Char} (h : IsNumberText cs) :
    cs.flatMap quoteChar = cs := by
  induction cs with
  | nil => rfl
  | cons c cs ih =>
    obtain ⟨hc, hcs⟩ := List.forall_mem_cons.1 h
    have hquote : quoteChar c = [c] := by
      unfold quoteChar
      rw [if_neg, if_neg]
      · rintro rfl; exact absurd hc (by decide)
      · rintro rfl; exact absurd hc (by decide)
    rw [List.flatMap_cons, hquote, ih hcs]
    rfl

/-- What is escaped gets a backslash; a text that is quoted without one is quoted as it is. -/
theorem flatMap_quoteChar_of_not_mem {cs : List Char} (h : '\\' ∉ cs.flatMap quoteChar) :
    cs.flatMap quoteChar = cs := by
  induction cs with
  | nil => rfl
  | cons c cs ih =>
    rw [List.flatMap_cons, List.mem_append, not_or] at h
    have hquote : quoteChar c = [c] := by
      have := h.1
      unfold quoteChar at this ⊢
      split_ifs at this ⊢ with h₁ h₂
      · exact absurd List.mem_cons_self this
      · exact absurd List.mem_cons_self this
      · rfl
    rw [List.flatMap_cons, hquote, ih h.2]
    rfl

/-- A string is written like the text of a number only if it is that text. -/
theorem flatMap_quoteChar_eq_number {cs ds : List Char} (hds : IsNumberText ds)
    (h : cs.flatMap quoteChar = ds) : cs = ds := by
  have hnot : '\\' ∉ cs.flatMap quoteChar := fun hmem =>
    absurd (hds '\\' (h ▸ hmem)) (by decide)
  rw [← flatMap_quoteChar_of_not_mem hnot, h]

end DotWriter
