import Mathlib.Data.List.Basic

/-!
# Machines that read

A machine reads a list item by item and may refuse one.  `Reads` says that a list takes it from one
state to another, so that a list can be read part by part.
-/

namespace DotWriter

/-- The machine reads the list `cs` in the state `s` and comes to the state `t`. -/
def Reads {α σ : Type} (step : σ → α → Option σ) (s : σ) (cs : List α) (t : σ) : Prop :=
  cs.foldlM step s = some t

namespace Reads

variable {α σ : Type} {step : σ → α → Option σ} {s t u : σ} {c : α} {cs ds : List α}

theorem nil : Reads step s [] s := rfl

theorem cons (h : step s c = some t) (ht : Reads step t cs u) : Reads step s (c :: cs) u := by
  rw [Reads, List.foldlM_cons, h]
  exact ht

theorem of_cons (h : Reads step s (c :: cs) u) : ∃ t, step s c = some t ∧ Reads step t cs u :=
  Option.bind_eq_some_iff.1 h

theorem one (h : step s c = some t) : Reads step s [c] t := cons h nil

theorem append (hs : Reads step s cs t) (ht : Reads step t ds u) : Reads step s (cs ++ ds) u := by
  have hs' : cs.foldlM step s = some t := hs
  rw [Reads, List.foldlM_append, hs']
  exact ht

/-- A machine that puts every item of a list at the end of what it keeps. -/
theorem collect (f : List α → σ)
    (h : ∀ acc, ∀ c ∈ cs, step (f acc) c = some (f (acc ++ [c]))) (acc : List α) :
    Reads step (f acc) cs (f (acc ++ cs)) := by
  induction cs generalizing acc with
  | nil => simpa using nil
  | cons c cs ih =>
    obtain ⟨hc, hcs⟩ := List.forall_mem_cons.1 (fun c hc acc => h acc c hc)
    refine cons (hc acc) ?_
    have := ih (fun acc c hc => hcs c hc acc) (acc ++ [c])
    rwa [List.append_assoc] at this

end Reads

end DotWriter
