import DotWriter.Proofs.Attribute.Faults

/-!
# Which kind decides

An attribute takes values of several kinds, and a datum is given to the readers of these kinds in
turn.  A kind declines a datum if it has no reader or if its reader rejects the datum.

* `ReadByFirst` : the value that the first kind reads that does not decline the datum;
* `readFirst_eq_ok_iff` : this is the value that is returned;
* `Kind.accepts_of_read` : each reader returns values of its own kind;
* `checkValue_accepted_failsOnly` : a value of an accepted kind is refused only for its bounds, its
  text, or because it cannot be written;
* `coerce_sound` : **a datum is read by the first kind that takes it, the attribute accepts the
  value, and texts are always taken where strings are**.
-/

namespace DotWriter

open Outcome

variable {attr : AttributeId} {r : Raw} {v : Value}

/-! ### The first kind -/

/-- The kind leaves a datum to the next one: it has no reader, or its reader rejects the datum. -/
def Kind.Declines (k : Kind) (r : Raw) : Prop :=
  ∀ x, k.read? r = some x → ∃ f, x = .error f ∧ f.isRejection = true

/-- The first of the kinds that does not decline the datum reads it as the value. -/
def ReadByFirst (ks : List Kind) (r : Raw) (v : Value) : Prop :=
  ∃ before k after, ks = before ++ k :: after ∧ (∀ e ∈ before, e.Declines r) ∧
    k.read? r = some (.ok v)

theorem ReadByFirst.cons {k : Kind} {ks : List Kind} (hk : k.Declines r)
    (h : ReadByFirst ks r v) : ReadByFirst (k :: ks) r v := by
  obtain ⟨before, l, after, rfl, hbefore, hread⟩ := h
  exact ⟨k :: before, l, after, rfl, List.forall_mem_cons.2 ⟨hk, hbefore⟩, hread⟩

theorem readByFirst_of_readFirst {none : Fault} {ks : List Kind}
    (h : readFirst none r ks = .ok v) : ReadByFirst ks r v := by
  fun_induction readFirst none r ks with
  | case1 => cases h
  | case2 k ks w hread =>
    cases h
    exact ⟨[], k, ks, rfl, by simp, hread⟩
  | case3 k ks f hread hrejection ih =>
    refine (ih h).cons fun x hx => ?_
    rw [hread] at hx
    exact ⟨f, (Option.some.inj hx).symm, hrejection⟩
  | case4 => cases h
  | case5 k ks hok herror ih =>
    refine (ih h).cons fun x hx => ?_
    cases x with
    | ok w => exact absurd hx (hok w)
    | error f => exact absurd hx (herror f)

theorem readFirst_of_declines {none : Fault} {before ks : List Kind}
    (h : ∀ e ∈ before, e.Declines r) :
    readFirst none r (before ++ ks) = readFirst none r ks := by
  induction before with
  | nil => rfl
  | cons e before ih =>
    obtain ⟨he, hbefore⟩ := List.forall_mem_cons.1 h
    rw [List.cons_append, readFirst, ← ih hbefore]
    cases hread : e.read? r with
    | none => rfl
    | some x =>
      obtain ⟨f, rfl, hf⟩ := he x hread
      simp only [hf, if_true]

theorem readFirst_eq_ok_iff {none : Fault} {ks : List Kind} :
    readFirst none r ks = .ok v ↔ ReadByFirst ks r v := by
  refine ⟨readByFirst_of_readFirst, ?_⟩
  rintro ⟨before, k, after, rfl, hbefore, hread⟩
  rw [readFirst_of_declines hbefore, readFirst, hread]

/-- Where no reader fails but by a rejection, a datum that some kind takes is read. -/
theorem exists_readFirst {none : Fault} {ks : List Kind}
    (hrejects : ∀ k ∈ ks, ∀ x, k.read? r = some x → OnlyRejects x)
    (htaken : ∃ k ∈ ks, ∃ w, k.read? r = some (.ok w)) : ∃ w, readFirst none r ks = .ok w := by
  induction ks with
  | nil =>
    obtain ⟨k, hk, -⟩ := htaken
    exact absurd hk List.not_mem_nil
  | cons k ks ih =>
    obtain ⟨hk, hks⟩ := List.forall_mem_cons.1 hrejects
    by_cases htakes : ∃ w, k.read? r = some (.ok w)
    · obtain ⟨w, hw⟩ := htakes
      exact ⟨w, readFirst_eq_ok_iff.2 ⟨[], k, ks, rfl, by simp, hw⟩⟩
    · have hdeclines : k.Declines r := by
        intro x hx
        cases x with
        | ok w => exact absurd ⟨w, hx⟩ htakes
        | error f => exact ⟨f, rfl, hk _ hx f rfl⟩
      obtain ⟨l, hl, w, hw⟩ := htaken
      have hrest : l ∈ ks := by
        rcases List.mem_cons.1 hl with rfl | hl
        · exact absurd ⟨w, hw⟩ htakes
        · exact hl
      obtain ⟨u, hu⟩ := ih hks ⟨l, hrest, w, hw⟩
      exact ⟨u, readFirst_eq_ok_iff.2 ((readByFirst_of_readFirst hu).cons hdeclines)⟩

/-! ### The kind of what is read -/

/-- A reader returns values of its own kind. -/
theorem Kind.accepts_of_read {k : Kind} (h : k.read? r = some (.ok v)) : k.accepts v = true := by
  have hkind : of? v = some k := by
    cases k with
    | label => cases h
    | _ =>
      obtain ⟨_, -, rfl⟩ := map_eq_ok.1 (Option.some.inj h)
      rfl
  simp [accepts, hkind]

theorem Spec.accepts_of_coerce (h : coerce attr r = .ok v) : attr.spec.accepts v = true := by
  obtain ⟨k, hk, hread⟩ := exists_kind_of_readFirst h
  exact List.any_eq_true.2 ⟨k, hk, Kind.accepts_of_read hread⟩

/-- Labels are never read. -/
theorem coerce_ne_label (h : coerce attr r = .ok v) (n : LabelNode) : v ≠ .label n := by
  rintro rfl
  obtain ⟨k, -, hread⟩ := exists_kind_of_readFirst h
  cases k with
  | label => cases hread
  | _ =>
    obtain ⟨_, -, hlabel⟩ := map_eq_ok.1 (Option.some.inj hread)
    cases hlabel

/-- A text is never a number that is too large. -/
theorem Kind.read?_text_onlyRejects {k : Kind} {s : String} {x : Except Fault Value}
    (h : k.read? (.text s) = some x) : OnlyRejects x := fun f hf =>
  (Kind.read?_failsOnly h f hf).resolve_right fun hlarge => Raw.not_holdsTooLarge_text s hlarge.2

/-- Where strings are taken, texts are. -/
theorem exists_coerce_text (hkinds : .string ∈ attr.spec.kinds ∨ .escString ∈ attr.spec.kinds)
    (s : String) : ∃ v, coerce attr (.text s) = .ok v := by
  refine exists_readFirst (fun k _ x => Kind.read?_text_onlyRejects) ?_
  rcases hkinds with hstring | hescString
  · exact ⟨.string, hstring, .string s, rfl⟩
  · exact ⟨.escString, hescString, .escString s, rfl⟩

/-! ### Adding what was read -/

/-- The families of faults that arise where a value is written. -/
def Fault.Family.OfWriting : Fault.Family → Prop
  | .value | .operand | .missingKey | .missingIndex => True
  | _ => False

theorem LayerRange.render_failsOnly (l : LayerRange) :
    FailsOnly (fun f => f = .missingIndex ∨ f = .missingKey) l.render := by
  refine FailsOnly.bind (.mapM fun item _ => ?_) fun _ _ => .ok _
  unfold renderItem
  split
  · exact .ok _
  · exact .ok _
  · exact .error (.inl rfl)
  · exact .error (.inr rfl)

/-- How a value is refused where it is written, if it is no label. -/
theorem Value.render_failsOnly {v : Value} (hv : ∀ n, v ≠ .label n) :
    FailsOnly (fun f => f.family.OfWriting) v.render := by
  cases v with
  | label n => exact absurd rfl (hv n)
  | layerList l =>
    refine l.render_failsOnly.mono ?_
    rintro f ⟨rfl, -⟩
    trivial
  | layerRange l =>
    refine l.render_failsOnly.mono ?_
    rintro f (rfl | rfl)
    · trivial
    · trivial
  | color c =>
    refine c.render_failsOnly.mono fun f hf => ?_
    rw [hf]
    trivial
  | _ => exact .ok _

/-- A value that was read is never reported as one of a wrong kind when it is added. -/
theorem add_coerce_failsOnly {t : Table} (ht : t.supports attr = true)
    (hv : coerce attr r = .ok v) :
    FailsOnly (fun f => f.family ≠ .typeMismatch) (t.add attr (.value v)).1 := by
  have hrender := Value.render_failsOnly (coerce_ne_label hv)
  have hcheck : FailsOnly (fun f => f.family ≠ .typeMismatch) (check attr (.value v)) := by
    refine checkValue_accepted_failsOnly (Spec.accepts_of_coerce hv) (fun f hf => ?_)
      (hrender.mono fun f hf => ?_)
    · rw [hf]
      decide
    · intro hfamily
      rw [hfamily] at hf
      exact hf
  unfold Table.add
  rw [if_pos ht]
  cases hresult : check attr (.value v) with
  | ok text => exact .ok _
  | error f => exact .error (hcheck f hresult)

/-- **Reading is sound.**  The value is the one that the first kind reads that does not decline the
datum; the attribute accepts it, so that adding it is never refused for its kind; and where strings
are taken, every text is read. -/
theorem coerce_sound (attr : AttributeId) (r : Raw) :
    (∀ v, coerce attr r = .ok v ↔ ReadByFirst attr.spec.kinds r v) ∧
    (∀ v, coerce attr r = .ok v → attr.spec.accepts v = true ∧
      ∀ t : Table, t.supports attr = true →
        FailsOnly (fun f => f.family ≠ .typeMismatch) (t.add attr (.value v)).1) ∧
    (.string ∈ attr.spec.kinds ∨ .escString ∈ attr.spec.kinds →
      ∀ s, ∃ v, coerce attr (.text s) = .ok v) := by
  refine ⟨fun v => readFirst_eq_ok_iff, fun v hv => ?_, exists_coerce_text⟩
  exact ⟨Spec.accepts_of_coerce hv, fun t ht => add_coerce_failsOnly ht hv⟩

/-- A text that is no number is taken as a string, which comes after numbers. -/
theorem ratioFill_read :
    coerce (.dot .ratio) (.text "fill") = .ok (.string "fill") ∧
      ReadByFirst [.double, .string] (.text "fill") (.string "fill") ∧
      (AttributeId.dot .ratio).spec.accepts (.string "fill") = true ∧
      FailsOnly (fun f => f.family ≠ .typeMismatch)
        ((Table.ofDot [.ratio]).add (.dot .ratio) (.value (.string "fill"))).1 ∧
      ∀ s, ∃ v, coerce (.dot .ratio) (.text s) = .ok v := by
  have hread : coerce (.dot .ratio) (.text "fill") = .ok (.string "fill") := rfl
  obtain ⟨hfirst, hsound, htotal⟩ := coerce_sound (.dot .ratio) (.text "fill")
  obtain ⟨haccepts, hadded⟩ := hsound _ hread
  exact ⟨hread, (hfirst _).1 hread, haccepts, hadded _ rfl, htotal (.inl (by decide))⟩

end DotWriter
