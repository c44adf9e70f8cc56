import Mathlib.Data.List.Basic

/-!
# Angle brackets

A label stands between angle brackets and ends where its first bracket is closed.

* `angleDepth` : how many brackets a text leaves open;
* `IsMarkup` : a bracket that stays open up to the last character of the text;
* `IsBalanced` : a text that may stand between two brackets.
-/

namespace DotWriter

/-- How many angle brackets a text opens, less those that it closes. -/
def angleDepth (cs : List Char) : Int := cs.count '<' - cs.count '>'

/-- A bracket that stays open up to the last character, which closes it. -/
structure IsMarkup (cs : List Char) : Prop where
  opens : cs.head? = some '<'
  /-- Some bracket is open after every part from the beginning that is not empty. -/
  inside : ∀ n < cs.length, 0 < n → 1 ≤ angleDepth (cs.take n)
  closed : angleDepth cs = 0

/-- Every bracket that is closed was open, and all are closed in the end. -/
structure IsBalanced (cs : List Char) : Prop where
  inside : ∀ n, 0 ≤ angleDepth (cs.take n)
  closed : angleDepth cs = 0

instance (cs : List Char) : Decidable (IsMarkup cs) :=
  decidable_of_iff (cs.head? = some '<' ∧ (∀ n < cs.length, 0 < n → 1 ≤ angleDepth (cs.take n)) ∧
      angleDepth cs = 0)
    ⟨fun ⟨h, hi, hc⟩ => ⟨h, hi, hc⟩, fun h => ⟨h.opens, h.inside, h.closed⟩⟩

@[simp] theorem angleDepth_nil : angleDepth [] = 0 := rfl

@[simp] theorem angleDepth_append (cs ds : List Char) :
    angleDepth (cs ++ ds) = angleDepth cs + angleDepth ds := by
  simp only [angleDepth, List.count_append]
  omega

theorem angleDepth_cons (c : Char) (cs : List Char) :
    angleDepth (c :: cs) = angleDepth [c] + angleDepth cs := angleDepth_append [c] cs

theorem angleDepth_open : angleDepth ['<'] = 1 := rfl

theorem angleDepth_close : angleDepth ['>'] = -1 := rfl

theorem angleDepth_eq_zero {cs : List Char} (h : ∀ c ∈ cs, c ≠ '<' ∧ c ≠ '>') :
    angleDepth cs = 0 := by
  have hopen : cs.count '<' = 0 := List.count_eq_zero.2 fun hmem => (h _ hmem).1 rfl
  have hclose : cs.count '>' = 0 := List.count_eq_zero.2 fun hmem => (h _ hmem).2 rfl
  rw [angleDepth, hopen, hclose]
  rfl

/-- Markup ends in the bracket that takes its depth back to zero. -/
theorem IsMarkup.exists_close {cs : List Char} (h : IsMarkup cs) :
    ∃ front, cs = front ++ ['>'] ∧ angleDepth front = 1 := by
  obtain ⟨rest, rfl⟩ := List.head?_eq_some_iff.1 h.opens
  rcases List.eq_nil_or_concat' rest with rfl | ⟨inner, last, rfl⟩
  · exact absurd h.closed (by decide)
  have hinside := h.inside (inner.length + 1) (by simp) (Nat.succ_pos _)
  have htake : ('<' :: (inner ++ [last])).take (inner.length + 1) = '<' :: inner := by simp
  rw [htake] at hinside
  have hclosed := h.closed
  rw [← List.cons_append, angleDepth_append] at hclosed
  have hlast : last = '>' := by
    by_contra hlast
    by_cases hopen : last = '<'
    · rw [hopen, angleDepth_open] at hclosed
      omega
    · have hzero : angleDepth [last] = 0 := angleDepth_eq_zero (by simp [hopen, hlast])
      omega
  subst hlast
  rw [angleDepth_close] at hclosed
  exact ⟨'<' :: inner, rfl, by omega⟩

namespace IsBalanced

theorem nil : IsBalanced [] := ⟨by simp, rfl⟩

theorem of_no_brackets {cs : List Char} (h : ∀ c ∈ cs, c ≠ '<' ∧ c ≠ '>') : IsBalanced cs := by
  refine ⟨fun n => ?_, angleDepth_eq_zero h⟩
  exact Int.le_of_eq (angleDepth_eq_zero fun c hc => h c (List.mem_of_mem_take hc)).symm

theorem append {cs ds : List Char} (hc : IsBalanced cs) (hd : IsBalanced ds) :
    IsBalanced (cs ++ ds) := by
  constructor
  · intro n
    rw [List.take_append, angleDepth_append]
    have := hc.inside n
    have := hd.inside (n - cs.length)
    omega
  · rw [angleDepth_append, hc.closed, hd.closed]
    rfl

/-- A text between two brackets is a bracket that stays open up to the end. -/
theorem isMarkup {cs : List Char} (h : IsBalanced cs) : IsMarkup ('<' :: (cs ++ ['>'])) := by
  refine ⟨rfl, fun n hn hpos => ?_, ?_⟩
  · obtain ⟨m, rfl⟩ : ∃ m, n = m + 1 := ⟨n - 1, by omega⟩
    have hm : m ≤ cs.length := by simpa using Nat.le_of_lt_succ hn
    rw [List.take_succ_cons, List.take_append_of_le_length hm, angleDepth_cons, angleDepth_open]
    have := h.inside m
    omega
  · rw [angleDepth_cons, angleDepth_append, angleDepth_open, angleDepth_close, h.closed]
    rfl

/-- A bracket that stays open up to the end is balanced. -/
theorem of_isMarkup {cs : List Char} (h : IsMarkup cs) : IsBalanced cs := by
  refine ⟨fun n => ?_, h.closed⟩
  rcases Nat.eq_zero_or_pos n with rfl | hpos
  · simp
  · rcases Nat.lt_or_ge n cs.length with hn | hn
    · have := h.inside n hn hpos
      omega
    · rw [List.take_of_length_le hn]
      exact Int.le_of_eq h.closed.symm

end IsBalanced

end DotWriter
