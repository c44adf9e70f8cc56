import DotWriter.Fault
import Mathlib.Data.List.Forall2
import Mathlib.Order.Defs.Unbundled

/-!
# Computations that can fail

The facts that take a chain of steps apart: a chain succeeds exactly when each of its steps does,
and every result of a list of steps is the result of one of them.  `FailsOnly` says how a computation
may fail; a chain fails only as its steps do.  `ReturnsOnly` says what a computation may return.

A computation with a state leaves a state also when it fails.  `Leads` says where it leads then, and
`FailsFrom` how it may fail, whatever state it starts from.
-/

namespace DotWriter

namespace Outcome

variable {ε α β : Type}

theorem bind_eq_ok {x : Except ε α} {f : α → Except ε β} {b : β} :
    x >>= f = .ok b ↔ ∃ a, x = .ok a ∧ f a = .ok b := by
  cases x with
  | error e =>
    constructor
    · intro h; cases h
    · rintro ⟨a, h, -⟩; cases h
  | ok a =>
    constructor
    · intro h; exact ⟨a, rfl, h⟩
    · rintro ⟨a', h, hb⟩; cases h; exact hb

theorem map_eq_ok {x : Except ε α} {f : α → β} {b : β} :
    f <$> x = .ok b ↔ ∃ a, x = .ok a ∧ f a = b := by
  cases x with
  | error e =>
    constructor
    · intro h; cases h
    · rintro ⟨a, h, -⟩; cases h
  | ok a =>
    constructor
    · intro h; cases h; exact ⟨a, rfl, rfl⟩
    · rintro ⟨a', h, rfl⟩; cases h; rfl

/-- A result that is worked on is still one. -/
theorem exists_bind_pure_iff {x : Except ε α} {f : α → β} :
    (∃ b, (do return f (← x)) = .ok b) ↔ ∃ a, x = .ok a := by
  constructor
  · rintro ⟨b, h⟩
    obtain ⟨a, ha, -⟩ := bind_eq_ok.1 h
    exact ⟨a, ha⟩
  · rintro ⟨a, h⟩
    exact ⟨f a, bind_eq_ok.2 ⟨a, h, rfl⟩⟩

theorem toOption_eq_some {x : Except ε α} {a : α} : x.toOption = some a ↔ x = .ok a := by
  cases x <;> simp [Except.toOption]

/-- Every result of a list of steps comes from one of them. -/
theorem exists_of_mem_mapM {f : α → Option β} {xs : List α} {ys : List β}
    (h : xs.mapM f = some ys) {y : β} (hy : y ∈ ys) : ∃ x ∈ xs, f x = some y := by
  induction xs generalizing ys with
  | nil =>
    cases h
    exact absurd hy List.not_mem_nil
  | cons x xs ih =>
    rw [List.mapM_cons] at h
    obtain ⟨z, hz, h⟩ := Option.bind_eq_some_iff.1 h
    obtain ⟨zs, hzs, h⟩ := Option.bind_eq_some_iff.1 h
    cases h
    rcases List.mem_cons.1 hy with rfl | hy
    · exact ⟨x, List.mem_cons_self, hz⟩
    · obtain ⟨x', hx', hf⟩ := ih hzs hy
      exact ⟨x', List.mem_cons_of_mem _ hx', hf⟩

theorem exists_mem_of_forall₂ {R : α → β → Prop} {xs : List α} {ys : List β}
    (h : List.Forall₂ R xs ys) {x : α} (hx : x ∈ xs) : ∃ y ∈ ys, R x y := by
  induction h with
  | nil => exact absurd hx List.not_mem_nil
  | cons hxy _ ih =>
    rcases List.mem_cons.1 hx with rfl | hx
    · exact ⟨_, List.mem_cons_self, hxy⟩
    · obtain ⟨y, hy, hR⟩ := ih hx
      exact ⟨y, List.mem_cons_of_mem _ hy, hR⟩

/-- A list of steps succeeds exactly when each of them does. -/
theorem mapM_eq_ok {f : α → Except ε β} {xs : List α} {ys : List β} :
    xs.mapM f = .ok ys ↔ List.Forall₂ (fun x y => f x = .ok y) xs ys := by
  induction xs generalizing ys with
  | nil =>
    rw [List.forall₂_nil_left_iff]
    exact ⟨fun h => by cases h; rfl, fun h => by rw [h]; rfl⟩
  | cons x xs ih =>
    rw [List.mapM_cons, List.forall₂_cons_left_iff]
    constructor
    · intro h
      obtain ⟨y, hy, h⟩ := bind_eq_ok.1 h
      obtain ⟨ys', hys, h⟩ := bind_eq_ok.1 h
      cases h
      exact ⟨y, ys', hy, ih.1 hys, rfl⟩
    · rintro ⟨y, ys', hy, hys, rfl⟩
      exact bind_eq_ok.2 ⟨y, hy, bind_eq_ok.2 ⟨ys', ih.2 hys, rfl⟩⟩

/-- A list of steps succeeds if each of them does. -/
theorem mapM_map_eq_ok {γ : Type} {f : β → Except ε γ} {g : α → β} {r : α → γ} {xs : List α}
    (h : ∀ x ∈ xs, f (g x) = .ok (r x)) : (xs.map g).mapM f = .ok (xs.map r) := by
  rw [mapM_eq_ok, List.forall₂_map_left_iff, List.forall₂_map_right_iff, List.forall₂_same]
  exact h

/-- A list of steps that all fail alike fails like that if one of them does. -/
theorem mapM_eq_error {f : α → Except ε β} {e : ε} {xs : List α}
    (hall : ∀ x ∈ xs, f x = .error e ∨ ∃ y, f x = .ok y) (h : ∃ x ∈ xs, f x = .error e) :
    xs.mapM f = .error e := by
  induction xs with
  | nil =>
    obtain ⟨x, hx, -⟩ := h
    exact absurd hx List.not_mem_nil
  | cons x xs ih =>
    obtain ⟨hx, hxs⟩ := List.forall_mem_cons.1 hall
    rw [List.mapM_cons]
    rcases hx with hx | ⟨y, hy⟩
    · rw [hx]
      rfl
    · obtain ⟨z, hz, hfail⟩ := h
      have htail : ∃ z ∈ xs, f z = .error e := by
        rcases List.mem_cons.1 hz with rfl | hz
        · rw [hfail] at hy
          cases hy
        · exact ⟨z, hz, hfail⟩
      rw [hy, ih hxs htail]
      rfl

/-- A list of checks succeeds exactly when each of them does. -/
theorem forM_eq_ok {f : α → Except ε PUnit} {xs : List α} :
    xs.forM f = .ok () ↔ ∀ x ∈ xs, f x = .ok () := by
  induction xs with
  | nil => exact ⟨fun _ _ h => absurd h List.not_mem_nil, fun _ => rfl⟩
  | cons x xs ih =>
    have hcons : (x :: xs).forM f = f x >>= fun _ => xs.forM f := rfl
    rw [hcons, List.forall_mem_cons, ← ih]
    constructor
    · intro h
      obtain ⟨_, hx, hxs⟩ := bind_eq_ok.1 h
      exact ⟨hx, hxs⟩
    · rintro ⟨hx, hxs⟩
      exact bind_eq_ok.2 ⟨(), hx, hxs⟩

theorem exists_mem_of_mapM_ok {f : α → Except ε β} {xs : List α} {ys : List β}
    (h : xs.mapM f = .ok ys) {x : α} (hx : x ∈ xs) : ∃ y ∈ ys, f x = .ok y :=
  exists_mem_of_forall₂ (mapM_eq_ok.1 h) hx

/-- A list of steps has a result exactly when each of them has one. -/
theorem exists_mapM_ok_iff {f : α → Except ε β} {xs : List α} :
    (∃ ys, xs.mapM f = .ok ys) ↔ ∀ x ∈ xs, ∃ y, f x = .ok y := by
  constructor
  · rintro ⟨ys, h⟩ x hx
    obtain ⟨y, -, hy⟩ := exists_mem_of_mapM_ok h hx
    exact ⟨y, hy⟩
  · intro h
    induction xs with
    | nil => exact ⟨[], rfl⟩
    | cons x xs ih =>
      obtain ⟨⟨y, hy⟩, hxs⟩ := List.forall_mem_cons.1 h
      obtain ⟨ys, hys⟩ := ih hxs
      exact ⟨y :: ys, by rw [List.mapM_cons, hy, hys]; rfl⟩

theorem exists_of_mem_mapM_ok {f : α → Except ε β} {xs : List α} {ys : List β}
    (h : xs.mapM f = .ok ys) {y : β} (hy : y ∈ ys) : ∃ x ∈ xs, f x = .ok y :=
  exists_mem_of_forall₂ (mapM_eq_ok.1 h).flip hy

/-! ### How a computation may fail -/

/-- If the computation fails, `P` holds of its fault. -/
def FailsOnly (P : ε → Prop) (x : Except ε α) : Prop := ∀ e, x = .error e → P e

namespace FailsOnly

variable {P Q : ε → Prop}

theorem ok (a : α) : FailsOnly P (.ok a) := by
  rintro e ⟨⟩

theorem error {e : ε} (h : P e) : FailsOnly P (.error e : Except ε α) := by
  rintro _ ⟨⟩
  exact h

/-- The computation has a result, or it fails in one of the ways. -/
theorem ok_or_error {x : Except ε α} (hx : FailsOnly P x) :
    (∃ a, x = .ok a) ∨ ∃ e, x = .error e ∧ P e := by
  cases x with
  | error e => exact .inr ⟨e, rfl, hx e rfl⟩
  | ok a => exact .inl ⟨a, rfl⟩

theorem mono {x : Except ε α} (hx : FailsOnly P x) (h : ∀ e, P e → Q e) : FailsOnly Q x :=
  fun e he => h e (hx e he)

theorem bind {x : Except ε α} {f : α → Except ε β} (hx : FailsOnly P x)
    (hf : ∀ a, x = .ok a → FailsOnly P (f a)) : FailsOnly P (x >>= f) := by
  cases x with
  | error e => exact error (hx e rfl)
  | ok a => exact hf a rfl

theorem map {x : Except ε α} (hx : FailsOnly P x) (f : α → β) : FailsOnly P (f <$> x) := by
  cases x with
  | error e => exact error (hx e rfl)
  | ok a => exact ok (f a)

theorem mapM {f : α → Except ε β} {xs : List α} (h : ∀ x ∈ xs, FailsOnly P (f x)) :
    FailsOnly P (xs.mapM f) := by
  induction xs with
  | nil => exact ok []
  | cons x xs ih =>
    obtain ⟨hx, hxs⟩ := List.forall_mem_cons.1 h
    rw [List.mapM_cons]
    exact hx.bind fun _ _ => (ih hxs).bind fun _ _ => ok _

theorem forM {f : α → Except ε PUnit} {xs : List α} (h : ∀ x ∈ xs, FailsOnly P (f x)) :
    FailsOnly P (xs.forM f) := by
  induction xs with
  | nil => exact ok ()
  | cons x xs ih =>
    obtain ⟨hx, hxs⟩ := List.forall_mem_cons.1 h
    exact hx.bind fun _ _ => ih hxs

theorem foldlM {f : β → α → Except ε β} {xs : List α} (h : ∀ b, ∀ x ∈ xs, FailsOnly P (f b x))
    (b : β) : FailsOnly P (xs.foldlM f b) := by
  induction xs generalizing b with
  | nil => exact ok b
  | cons x xs ih =>
    rw [List.foldlM_cons]
    exact (h b x List.mem_cons_self).bind fun b _ =>
      ih (fun b x hx => h b x (List.mem_cons_of_mem _ hx)) b

/-- An operation fails as it did before its state was read off. -/
theorem leaving {σ : Type} {P : Fault → Prop} {p : Except Fault Unit × σ} (h : FailsOnly P p.1) :
    FailsOnly P (leaving p) := by
  rcases p with ⟨f | _, s⟩
  · exact error (h f rfl)
  · exact ok s

end FailsOnly

/-! ### What a computation may return -/

/-- If the computation succeeds, `P` holds of its result. -/
def ReturnsOnly (P : α → Prop) (x : Except ε α) : Prop := ∀ a, x = .ok a → P a

namespace ReturnsOnly

variable {P : α → Prop}

theorem ok {a : α} (h : P a) : ReturnsOnly P (.ok a : Except ε α) := by
  rintro _ ⟨⟩
  exact h

theorem error (e : ε) : ReturnsOnly P (.error e) := by
  rintro a ⟨⟩

theorem bind {x : Except ε β} {f : β → Except ε α} (h : ∀ b, x = .ok b → ReturnsOnly P (f b)) :
    ReturnsOnly P (x >>= f) := by
  intro a ha
  obtain ⟨b, hb, hf⟩ := bind_eq_ok.1 ha
  exact h b hb a hf

theorem map {x : Except ε β} {f : β → α} (h : ReturnsOnly (fun b => P (f b)) x) :
    ReturnsOnly P (f <$> x) := by
  intro a ha
  obtain ⟨b, hb, rfl⟩ := map_eq_ok.1 ha
  exact h b hb

/-- An invariant of the steps holds of what they return. -/
theorem foldlM {f : α → β → Except ε α} {xs : List β} {a : α}
    (h : ∀ a, P a → ∀ x ∈ xs, ReturnsOnly P (f a x)) (ha : P a) :
    ReturnsOnly P (xs.foldlM f a) := by
  induction xs generalizing a with
  | nil => exact ok ha
  | cons x xs ih =>
    rw [List.foldlM_cons]
    refine bind fun b hb => ih (fun a ha x hx => h a ha x (List.mem_cons_of_mem _ hx)) ?_
    exact h a ha x List.mem_cons_self b hb

theorem leaving {σ : Type} {P : σ → Prop} {p : Except Fault Unit × σ} (h : P p.2) :
    ReturnsOnly P (leaving p) := by
  rcases p with ⟨f | _, s⟩
  · exact error f
  · exact ok h

end ReturnsOnly

theorem leaving_eq_ok {σ : Type} {p : Except Fault Unit × σ} {s : σ} :
    leaving p = .ok s ↔ p = (.ok (), s) := by
  rcases p with ⟨_ | _, t⟩ <;> simp [leaving]

end Outcome

/-! ### Computations with a state -/

namespace Changing

variable {σ τ α β : Type}

@[simp] theorem run_of (f : σ → Except Fault α × σ) (s : σ) : (Changing.of f).runOn s = f s := rfl

@[simp] theorem run_lift (x : Except Fault α) (s : σ) :
    (liftExcept x : Changing σ α).runOn s = (x, s) := by
  cases x <;> rfl

/-- The second part of a computation runs on the state that the first one leaves. -/
theorem run_bind (x : Changing σ α) (f : α → Changing σ β) (s : σ) :
    (x >>= f).runOn s = match x.runOn s with
      | (.ok a, s) => (f a).runOn s
      | (.error e, s) => (.error e, s) := by
  change (ExceptT.bindCont f (x.runOn s).1).run (x.runOn s).2 = _
  rcases x.runOn s with ⟨_ | a, s'⟩ <;> rfl

/-- A chain succeeds exactly when each of its parts does. -/
theorem run_bind_eq_ok {x : Changing σ α} {f : α → Changing σ β} {s t : σ} {b : β} :
    (x >>= f).runOn s = (.ok b, t) ↔
      ∃ a u, x.runOn s = (.ok a, u) ∧ (f a).runOn u = (.ok b, t) := by
  rw [run_bind]
  rcases x.runOn s with ⟨_ | a, u⟩ <;> simp

theorem run_lift_eq_ok {x : Except Fault α} {s t : σ} {a : α} :
    (liftExcept x : Changing σ α).runOn s = (.ok a, t) ↔ x = .ok a ∧ s = t := by
  rw [run_lift, Prod.mk.injEq]

theorem run_lift_bind_eq_ok {x : Except Fault α} {f : α → Changing σ β} {s t : σ} {b : β} :
    ((liftExcept x : Changing σ α) >>= f).runOn s = (.ok b, t) ↔
      ∃ a, x = .ok a ∧ (f a).runOn s = (.ok b, t) := by
  simp only [run_bind_eq_ok, run_lift_eq_ok]
  constructor
  · rintro ⟨a, _, ⟨ha, rfl⟩, h⟩
    exact ⟨a, ha, h⟩
  · rintro ⟨a, ha, h⟩
    exact ⟨a, s, ⟨ha, rfl⟩, h⟩

theorem run_forM_cons_eq_ok {f : α → Changing σ PUnit} {x : α} {xs : List α} {s t : σ} :
    ((x :: xs).forM f).runOn s = (.ok (), t) ↔
      ∃ u, (f x).runOn s = (.ok (), u) ∧ (xs.forM f).runOn u = (.ok (), t) := by
  have hcons : (x :: xs).forM f = f x >>= fun _ => xs.forM f := rfl
  rw [hcons, run_bind_eq_ok]
  exact ⟨fun ⟨_, u, hx, hxs⟩ => ⟨u, hx, hxs⟩, fun ⟨u, hx, hxs⟩ => ⟨(), u, hx, hxs⟩⟩

theorem run_within (view : σ → τ) (put : σ → τ → σ) (x : Changing τ α) (s : σ) :
    (within view put x).runOn s = ((x.runOn (view s)).1, put s (x.runOn (view s)).2) := rfl

/-- A computation on a part of the state succeeds exactly when it does there. -/
theorem run_within_eq_ok {view : σ → τ} {put : σ → τ → σ} {x : Changing τ α} {s s' : σ} {a : α} :
    (within view put x).runOn s = (.ok a, s') ↔
      ∃ t, x.runOn (view s) = (.ok a, t) ∧ put s t = s' := by
  rw [run_within]
  rcases x.runOn (view s) with ⟨result, t⟩
  simp

/-- Whether it fails or not, the computation leads from every state to one that is related. -/
def Leads (R : σ → σ → Prop) (x : Changing σ α) : Prop := ∀ s, R s (x.runOn s).2

namespace Leads

variable {R : σ → σ → Prop}

theorem within {S : τ → τ → Prop} {view : σ → τ} {put : σ → τ → σ} {x : Changing τ α}
    (hx : Leads S x) (h : ∀ s t, S (view s) t → R s (put s t)) : Leads R (within view put x) :=
  fun s => h s _ (hx (view s))

variable [IsPreorder σ R]

theorem pure (a : α) : Leads R (Pure.pure a : Changing σ α) := refl_of R

theorem throw (f : Fault) : Leads R (MonadExcept.throw f : Changing σ α) := refl_of R

theorem lift (x : Except Fault α) : Leads R (liftExcept x : Changing σ α) := by
  intro s
  rw [run_lift]
  exact refl_of R s

theorem bind {x : Changing σ α} {f : α → Changing σ β} (hx : Leads R x) (hf : ∀ a, Leads R (f a)) :
    Leads R (x >>= f) := by
  intro s
  have hs := hx s
  rw [run_bind]
  rcases hrun : x.runOn s with ⟨_ | a, t⟩ <;> rw [hrun] at hs
  · exact hs
  · exact trans_of R hs (hf a t)

theorem forM {f : α → Changing σ PUnit} (h : ∀ a, Leads R (f a)) (xs : List α) :
    Leads R (xs.forM f) := by
  induction xs with
  | nil => exact pure _
  | cons x xs ih => exact (h x).bind fun _ => ih

end Leads

/-- If the computation fails, whatever state it starts from, `P` holds of its fault. -/
def FailsFrom (P : Fault → Prop) (x : Changing σ α) : Prop :=
  ∀ s, Outcome.FailsOnly P (x.runOn s).1

namespace FailsFrom

variable {P Q : Fault → Prop}

theorem pure (a : α) : FailsFrom P (Pure.pure a : Changing σ α) := fun _ => .ok a

theorem throw {f : Fault} (h : P f) : FailsFrom P (MonadExcept.throw f : Changing σ α) :=
  fun _ => .error h

theorem lift {x : Except Fault α} (hx : Outcome.FailsOnly P x) :
    FailsFrom P (liftExcept x : Changing σ α) := by
  intro s
  rw [run_lift]
  exact hx

/-- What comes next depends on the result of what came before. -/
theorem bind_of {x : Changing σ α} {f : α → Changing σ β} (hx : FailsFrom P x)
    (hf : ∀ s a t, x.runOn s = (.ok a, t) → Outcome.FailsOnly P ((f a).runOn t).1) :
    FailsFrom P (x >>= f) := by
  intro s
  have hs := hx s
  rw [run_bind]
  rcases hrun : x.runOn s with ⟨e | a, t⟩
  · rw [hrun] at hs
    exact .error (hs e rfl)
  · exact hf s a t hrun

theorem bind {x : Changing σ α} {f : α → Changing σ β} (hx : FailsFrom P x)
    (hf : ∀ a, FailsFrom P (f a)) : FailsFrom P (x >>= f) :=
  hx.bind_of fun _ a t _ => hf a t

theorem lift_bind {x : Except Fault α} {f : α → Changing σ β} (hx : Outcome.FailsOnly P x)
    (hf : ∀ a, x = .ok a → FailsFrom P (f a)) :
    FailsFrom P ((liftExcept x : Changing σ α) >>= f) :=
  (lift hx).bind_of fun _ a t h => hf a (run_lift_eq_ok.1 h).1 t

theorem forM {f : α → Changing σ PUnit} {xs : List α} (h : ∀ a ∈ xs, FailsFrom P (f a)) :
    FailsFrom P (xs.forM f) := by
  induction xs with
  | nil => exact pure _
  | cons x xs ih =>
    obtain ⟨hx, hxs⟩ := List.forall_mem_cons.1 h
    exact hx.bind fun _ => ih hxs

theorem within {view : σ → τ} {put : σ → τ → σ} {x : Changing τ α} (hx : FailsFrom P x) :
    FailsFrom P (within view put x) := fun s => hx (view s)

theorem mono {x : Changing σ α} (hx : FailsFrom P x) (h : ∀ f, P f → Q f) : FailsFrom Q x :=
  fun s => (hx s).mono h

end FailsFrom

end Changing

end DotWriter
