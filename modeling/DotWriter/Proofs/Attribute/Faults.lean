import DotWriter.Proofs.Attribute.Check
import DotWriter.Proofs.Document.Tree
import DotWriter.Proofs.Value.Faults
import DotWriter.Proofs.Value.Names

/-!
# How reading an attribute may fail

* `Kind.read?_failsOnly` : a reader rejects a datum, or finds a number in it that is too large;
* `coerce_failsOnly` : a datum is read as a value of an attribute, or the fault is reported, but for
  such a number;
* `checkValue_coerce_failsOnly` : **the value that was read is written, or the fault is reported**,
  but for layers whose names are lists or mappings.
-/

namespace DotWriter

open Outcome

/-! ### All readers -/

/-- A reader rejects a datum, or finds a number in it that is too large. -/
theorem Kind.read?_failsOnly {k : Kind} {r : Raw} {x : Except Fault Value}
    (h : k.read? r = some x) : FailsOnly r.ReadFault x := by
  cases k <;> cases h
  case bool => exact (r.readBool_onlyRejects.reads r).map _
  case int => exact (r.readInteger_onlyRejects.reads r).map _
  case double => exact r.readDouble_failsOnly.map _
  case string => exact (r.readString_onlyRejects.reads r).map _
  case escString => exact (r.readString_onlyRejects.reads r).map _
  case point => exact r.readPoint_failsOnly.map _
  case pointList => exact r.readPointList_failsOnly.map _
  case rect => exact r.readRect_failsOnly.map _
  case addDouble => exact r.readAddDouble_failsOnly.map _
  case addPoint => exact r.readAddPoint_failsOnly.map _
  case portPos => exact (r.readPortPos_onlyRejects.reads r).map _
  case layerList => exact (r.readLayerList_onlyRejects.reads r).map _
  case layerRange => exact (r.readLayerRange_onlyRejects.reads r).map _
  case viewPort => exact (r.readViewPort_onlyRejects.reads r).map _
  case styleList => exact (r.readStyleList_onlyRejects.reads r).map _
  case color => exact ((readColor_onlyRejects r).reads r).map _
  case sides => exact (r.readSides_onlyRejects.reads r).map _
  case member e => exact ((r.readMember_onlyRejects e).reads r).map _

theorem readFirst_failsOnly (none : Fault) (r : Raw) (ks : List Kind) :
    FailsOnly (fun f => f = none ∨ (f = .tooLarge ∧ r.HoldsTooLarge)) (readFirst none r ks) := by
  fun_induction readFirst none r ks with
  | case1 => exact .error (.inl rfl)
  | case2 => exact .ok _
  | case3 _ _ _ _ _ ih => exact ih
  | case4 k ks f hread hrejection =>
    exact .error (.inr ((Kind.read?_failsOnly hread f rfl).resolve_left hrejection))
  | case5 _ _ _ _ ih => exact ih

/-- A value that is read was read by one of the kinds of the attribute. -/
theorem exists_kind_of_readFirst {none : Fault} {r : Raw} {ks : List Kind} {v : Value}
    (h : readFirst none r ks = .ok v) : ∃ k ∈ ks, k.read? r = some (.ok v) := by
  fun_induction readFirst none r ks with
  | case1 => cases h
  | case2 k ks w hread =>
    cases h
    exact ⟨k, List.mem_cons_self, hread⟩
  | case3 _ _ _ _ _ ih =>
    obtain ⟨k, hk, hread⟩ := ih h
    exact ⟨k, List.mem_cons_of_mem _ hk, hread⟩
  | case4 => cases h
  | case5 _ _ _ _ ih =>
    obtain ⟨k, hk, hread⟩ := ih h
    exact ⟨k, List.mem_cons_of_mem _ hk, hread⟩

/-- A datum is read, or reported, or it holds a number that is too large. -/
theorem coerce_failsOnly (attr : AttributeId) (r : Raw) :
    FailsOnly (fun f => f.isReported = true ∨ (f = .tooLarge ∧ r.HoldsTooLarge))
      (coerce attr r) :=
  (readFirst_failsOnly _ r _).mono fun f hf => hf.imp_left fun h => by
    subst h
    rfl

/-! ### Writing what was read -/

/-- The computation fails only with faults that are reported. -/
abbrev OnlyReports {α : Type} (x : Except Fault α) : Prop :=
  FailsOnly (fun f => f.isReported = true) x

theorem OnlyValueFaults.reports {α : Type} {x : Except Fault α} (h : OnlyValueFaults x) :
    OnlyReports x :=
  h.mono fun f hf => by rw [Fault.isReported, hf]

/-- The datum is a list with an item that is no text. -/
def Raw.HasNestedItem (r : Raw) : Prop := ∃ items, r = .list items ∧ ∃ s ∈ items, ∀ t, s ≠ .text t

theorem LayerList.render_failsOnly (l : LayerList) :
    FailsOnly (fun f => f = .wrongOperand ∧ ∃ s ∈ l.names, ∀ t, s ≠ .text t) l.render := by
  refine FailsOnly.bind (.mapM fun s hs => ?_) fun _ _ => .ok _
  unfold nameText
  split
  · exact .ok _
  · rename_i hne
    exact .error ⟨rfl, s, hs, hne⟩

/-- The names of layers that were read from anything but a list are texts. -/
theorem LayerList.names_of_read {r : Raw} {l : LayerList} (h : r.readLayerList = .ok l)
    (hne : ∃ s ∈ l.names, ∀ t, s ≠ .text t) : r.HasNestedItem := by
  obtain ⟨s, hs, hne⟩ := hne
  unfold Raw.readLayerList at h
  split at h
  · obtain ⟨-, -, rfl⟩ := of_eq_ok.1 h
    exact ⟨_, rfl, s, hs, hne⟩
  · obtain ⟨-, -, rfl⟩ := of_eq_ok.1 h
    obtain ⟨part, -, rfl⟩ := List.mem_map.1 hs
    exact absurd rfl (hne _)

/-- Single layers and ranges that were read are written. -/
theorem LayerRange.render_of_read {P : Fault → Prop} {r : Raw} {l : LayerRange}
    (h : r.readLayerRange = .ok l) : FailsOnly P l.render := by
  unfold Raw.readLayerRange at h
  obtain ⟨-, -, rfl⟩ := of_eq_ok.1 h
  refine FailsOnly.bind (.mapM fun s hs => ?_) fun _ _ => .ok _
  obtain ⟨item, -, rfl⟩ := List.mem_map.1 hs
  unfold Raw.layerItem
  split
  · exact .ok _
  · exact .ok _

/-- How writing a value of one kind may fail, if the value was read. -/
def Kind.WriteFault (k : Kind) (r : Raw) (f : Fault) : Prop :=
  f.isReported = true ∨ (f = .wrongOperand ∧ k = .layerList ∧ r.HasNestedItem)

theorem Kind.render_failsOnly {k : Kind} {r : Raw} {v : Value} (h : k.read? r = some (.ok v)) :
    FailsOnly (k.WriteFault r) v.render := by
  cases k with
  | label => cases h
  | layerList =>
    obtain ⟨l, hl, rfl⟩ := map_eq_ok.1 (Option.some.inj h)
    exact l.render_failsOnly.mono fun f hf =>
      .inr ⟨hf.1, rfl, LayerList.names_of_read hl hf.2⟩
  | layerRange =>
    obtain ⟨l, hl, rfl⟩ := map_eq_ok.1 (Option.some.inj h)
    exact LayerRange.render_of_read hl
  | color =>
    obtain ⟨c, -, rfl⟩ := map_eq_ok.1 (Option.some.inj h)
    exact c.render_failsOnly.reports.mono fun f => .inl
  | _ =>
    obtain ⟨_, -, rfl⟩ := map_eq_ok.1 (Option.some.inj h)
    exact .ok _

/-- A value of a kind that the attribute accepts is refused only for its bounds, for its text, or
because it cannot be written. -/
theorem checkValue_accepted_failsOnly {attr : AttributeId} {v : Value} {P : Fault → Prop}
    (ha : attr.spec.accepts v = true) (hrange : ∀ f, f.family = .range → P f)
    (hv : FailsOnly P v.render) : FailsOnly P (checkValue attr v) := by
  have hbounds : FailsOnly P (attr.spec.checkNumber attr.name v) := by
    unfold Spec.checkNumber
    split
    · unfold Spec.checkBounds
      split
      · exact .error (hrange _ rfl)
      · exact .error (hrange _ rfl)
      · exact .ok _
    · exact .ok _
  have hchoices : FailsOnly P (attr.spec.checkChoices attr.name v) := by
    unfold Spec.checkChoices
    split
    · exact .ok _
    · refine hv.bind fun text _ => ?_
      split_ifs
      · exact .ok _
      · exact .error (hrange _ rfl)
  have hstored : FailsOnly P (storedText attr v) := by
    unfold storedText
    split
    · exact .ok _
    · exact .ok _
    · exact hv
    · exact hv.bind fun _ _ => .ok _
  rw [checkValue_eq ha]
  exact hbounds.bind fun _ _ => hchoices.bind fun _ _ => hstored

/-- Bounds and texts that are not allowed are reported. -/
theorem checkValue_failsOnly {attr : AttributeId} {v : Value} {P : Fault → Prop}
    (hreported : ∀ f, f.isReported = true → P f) (hv : FailsOnly P v.render) :
    FailsOnly P (checkValue attr v) := by
  by_cases ha : attr.spec.accepts v = true
  · refine checkValue_accepted_failsOnly ha (fun f hf => hreported f ?_) hv
    rw [Fault.isReported, hf]
  · simp only [checkValue, ha, Bool.not_false, if_true]
    exact .error (hreported _ rfl)

/-- Only one attribute takes names of layers. -/
theorem AttributeId.eq_layers {attr : AttributeId} (h : .layerList ∈ attr.spec.kinds) :
    attr = .dot .layers := by
  cases attr with
  | dot a =>
    have hall : ∀ a ∈ DotAttribute.all, Kind.layerList ∈ a.spec.kinds → a = .layers := by
      decide +kernel
    exact congrArg dot (hall a a.mem_all h)
  | html a => cases a <;> exact absurd h (by decide)

/-- **The value that was read is written, or the fault is reported**, but for layers whose names are
lists or mappings. -/
theorem checkValue_coerce_failsOnly {attr : AttributeId} {r : Raw} {v : Value}
    (h : coerce attr r = .ok v) :
    FailsOnly (fun f => f.isReported = true ∨
      (f = .wrongOperand ∧ attr.name = "layers" ∧ r.HasNestedItem)) (checkValue attr v) := by
  obtain ⟨k, hk, hread⟩ := exists_kind_of_readFirst h
  refine checkValue_failsOnly (fun f => .inl) ((Kind.render_failsOnly hread).mono fun f hf => ?_)
  refine hf.imp_right ?_
  rintro ⟨hfault, hkind, hnested⟩
  have hattr := AttributeId.eq_layers (hkind ▸ hk)
  exact ⟨hfault, congrArg AttributeId.name hattr, hnested⟩

end DotWriter
