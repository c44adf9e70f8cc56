import DotWriter.Proofs.Label.Plan

/-!
# What labels are made of

The operations that make a node of a label check what it may hold, most of them.  `Constructed` says
which nodes can be made, and `Typed` what can be relied on in them.

* `LabelNode.callAt` : a call on a part that a node holds, however deep;
* `LabelNode.Constructed` : the nodes that can be made by constructors and calls;
* `Tag.Admits`, `LabelNode.Typed` : what the nodes hold, as far as it is checked;
* `Constructed.typed` : **what can be made is typed**, and it has a plan;
* `LabelNode.exists_render_iff` : the nodes that can be written.
-/

namespace DotWriter

/-- What can be asked of a part of a label. -/
inductive LabelCall
  | add (d : Datum)
  | addRule
  | setAttribute (attr : AttributeId) (d : Datum)

/-- The arguments of a call. -/
def LabelCall.arguments : LabelCall → List Datum
  | add d => [d]
  | addRule => []
  | setAttribute _ d => [d]

namespace LabelNode

/-- The node after a call that is not refused. -/
def call (n : LabelNode) : LabelCall → Except Fault LabelNode
  | .add d => n.add d
  | .addRule => n.addRule
  | .setAttribute attr d => n.setAttribute attr d

/-- The node after a call on a part that it holds, which is found along a path of positions. -/
def callAt (c : LabelCall) : List Nat → LabelNode → Except Fault LabelNode
  | [], n => n.call c
  | i :: path, text items =>
    match items[i]? with
    | some m => do return text (items.set i (← callAt c path m))
    | none => .error .noSuchPart
  | i :: path, tag t attributes content =>
    match content[i]? with
    | some m => do return tag t attributes (content.set i (← callAt c path m))
    | none => .error .noSuchPart
  | _ :: _, _ => .error .noSuchPart

/-- The nodes that can be made of parts of labels: by constructors, and by calls on a node or on a
part that it holds.  A part that is held in several places is changed by a call for each of them. -/
inductive Constructed : LabelNode → Prop
  | of {className : String} {args : List Datum} {n : LabelNode}
    (hargs : ∀ m, .node m ∈ args → Constructed m) (h : LabelNode.of className args = .ok n)
    (hparts : n.children.all isPart = true) : Constructed n
  | call {n n' : LabelNode} {c : LabelCall} {path : List Nat} (hn : Constructed n)
    (hargs : ∀ m, .node m ∈ c.arguments → Constructed m) (h : n.callAt c path = .ok n') :
    Constructed n'

end LabelNode

/-- What tables are divided into, and rows in turn. -/
inductive Layer
  | rows | cells

namespace Layer

/-- The tag that is divided. -/
def outer : Layer → Tag
  | rows => .table
  | cells => .tableRow

/-- The tag of its divisions. -/
def inner : Layer → Tag
  | rows => .tableRow
  | cells => .tableCell

/-- The rule between two of them. -/
def rule : Layer → Tag
  | rows => .horizontalRule
  | cells => .verticalRule

end Layer

/-- What a tag holds, as far as it is checked.  Nothing is checked of what a tag that changes the
font of a text is given as its text. -/
structure Tag.Admits (t : Tag) (content : List LabelNode) : Prop where
  void : t.isVoid = true → content = []
  divided : ∀ l : Layer, t = l.outer →
    ∀ n ∈ content, n.isTag l.inner = true ∨ n.isTag l.rule = true
  single : t.isVoid = false → (∀ l : Layer, t ≠ l.outer) → ∃ n, content = [n]
  cell : t = .tableCell → ∀ n ∈ content, n.isCellContent = true
  fontTable : t.wrapsTable = true → ∀ n ∈ content, n.isTable = true

namespace LabelNode

/-- Every text holds text items, and every tag what it admits. -/
inductive Typed : LabelNode → Prop
  | chars (s : String) : Typed (chars s)
  | text {items : List LabelNode} (hitems : ∀ n ∈ items, n.isTextItem = true)
    (h : ∀ n ∈ items, Typed n) : Typed (text items)
  | tag {t : Tag} {attributes : Table} {content : List LabelNode} (hcontent : t.Admits content)
    (h : ∀ n ∈ content, Typed n) : Typed (tag t attributes content)

/-! ### Kinds of nodes -/

/-- Two nodes that may stand in each other's place. -/
def SameKind : LabelNode → LabelNode → Prop
  | chars _, chars _ => True
  | text _, text _ => True
  | tag t _ _, tag u _ _ => t = u
  | foreign _, foreign _ => True
  | _, _ => False

namespace SameKind

variable {n m : LabelNode}

theorem isTag (h : SameKind n m) (t : Tag) : m.isTag t = n.isTag t := by
  cases n <;> cases m <;> simp_all [SameKind, LabelNode.isTag]

theorem isTextItem (h : SameKind n m) : m.isTextItem = n.isTextItem := by
  cases n <;> cases m <;> simp_all [SameKind, LabelNode.isTextItem]

theorem isTable (h : SameKind n m) : m.isTable = n.isTable := by
  cases n <;> cases m <;> simp_all [SameKind, LabelNode.isTable]

theorem isText (h : SameKind n m) : m.isText = n.isText := by
  cases n <;> cases m <;> simp_all [SameKind, LabelNode.isText]

theorem isCellContent (h : SameKind n m) : m.isCellContent = n.isCellContent := by
  rw [LabelNode.isCellContent, LabelNode.isCellContent, h.isText, h.isTable, h.isTag]

end SameKind

/-- A call leaves a node what it is. -/
theorem call_sameKind {n n' : LabelNode} {c : LabelCall} (h : n.call c = .ok n') :
    SameKind n n' := by
  have happend : ∀ m, SameKind n (n.append m) := by
    intro m
    cases n <;> simp [SameKind, append]
  cases c with
  | add d =>
    obtain ⟨m, -, h⟩ := Outcome.bind_eq_ok.1 h
    cases h
    exact happend m
  | addRule =>
    obtain ⟨rule, -, rfl⟩ := addRule_eq_ok h
    exact happend _
  | setAttribute attr d =>
    obtain ⟨t, attributes, content, table, rfl, -, rfl⟩ := setAttribute_eq_ok h
    rfl

/-- A call on a part replaces the node that leads to it. -/
theorem callAt_cons {n n' : LabelNode} {c : LabelCall} {i : Nat} {path : List Nat}
    (h : n.callAt c (i :: path) = .ok n') :
    (∃ items m m', n = text items ∧ items[i]? = some m ∧ m.callAt c path = .ok m' ∧
      n' = text (items.set i m')) ∨
    ∃ t attributes content m m', n = tag t attributes content ∧ content[i]? = some m ∧
      m.callAt c path = .ok m' ∧ n' = tag t attributes (content.set i m') := by
  cases n with
  | chars s => cases h
  | foreign written => cases h
  | text items =>
    simp only [callAt] at h
    split at h
    · rename_i m hi
      obtain ⟨m', hm', h⟩ := Outcome.bind_eq_ok.1 h
      cases h
      exact .inl ⟨items, m, m', rfl, hi, hm', rfl⟩
    · cases h
  | tag t attributes content =>
    simp only [callAt] at h
    split at h
    · rename_i m hi
      obtain ⟨m', hm', h⟩ := Outcome.bind_eq_ok.1 h
      cases h
      exact .inr ⟨t, attributes, content, m, m', rfl, hi, hm', rfl⟩
    · cases h

theorem callAt_sameKind {n n' : LabelNode} {c : LabelCall} {path : List Nat}
    (h : n.callAt c path = .ok n') : SameKind n n' := by
  cases path with
  | nil => exact call_sameKind h
  | cons i path =>
    obtain ⟨items, m, m', rfl, -, -, rfl⟩ | ⟨t, attributes, content, m, m', rfl, -, -, rfl⟩ :=
      callAt_cons h
    · trivial
    · rfl

/-! ### Constructors and calls -/

theorem typed_noText : noText.Typed := .text (by simp) (by simp)

/-- A tag that stands alone or is divided may hold nothing. -/
theorem admits_nil {t : Tag} (h : t.isVoid = true ∨ ∃ l : Layer, t = l.outer) : t.Admits [] := by
  refine ⟨fun _ => rfl, by simp, fun hvoid hnot => ?_, by simp, by simp⟩
  rcases h with h | ⟨l, h⟩
  · rw [h] at hvoid
    cases hvoid
  · exact absurd h (hnot l)

/-- What is divided may get another division or rule. -/
theorem admits_concat {l : Layer} {content : List LabelNode} {n : LabelNode}
    (h : l.outer.Admits content) (hn : n.isTag l.inner = true ∨ n.isTag l.rule = true) :
    l.outer.Admits (content ++ [n]) := by
  refine ⟨?_, fun k hk => ?_, fun _ hnot => absurd rfl (hnot l), ?_, ?_⟩
  · cases l <;> simp [Layer.outer, Tag.isVoid]
  · obtain rfl : l = k := by
      cases l <;> cases k <;> first | rfl | cases hk
    exact forall_mem_concat (h.divided l rfl) hn
  · cases l <;> simp [Layer.outer]
  · cases l <;> simp [Layer.outer, Tag.wrapsTable]

theorem typed_bare {t : Tag} {content : List LabelNode} (hcontent : t.Admits content)
    (h : ∀ n ∈ content, n.Typed) : (bare t content).Typed := .tag hcontent h

theorem typed_add {n n' : LabelNode} {d : Datum} (hn : n.Typed)
    (hd : ∀ m, d = .node m → m.Typed) (h : n.add d = .ok n') : n'.Typed := by
  obtain ⟨m, hm, h⟩ := Outcome.bind_eq_ok.1 h
  cases h
  have hdivided : ∀ (l : Layer) (attributes : Table) (content : List LabelNode)
      (fault : Shown → Fault), (tag l.outer attributes content).Typed →
        nodeOf (isTag l.inner) fault d = .ok m →
          (tag l.outer attributes (content ++ [m])).Typed := by
    intro l attributes content fault htyped hnode
    obtain ⟨rfl, htag⟩ := nodeOf_eq_ok hnode
    cases htyped with
    | tag hcontent hall =>
      exact .tag (admits_concat hcontent (.inl htag)) (forall_mem_concat hall (hd m rfl))
  unfold checkedItem at hm
  split at hm
  · obtain ⟨hitem, hm⟩ := itemOf_eq_ok hm
    have htyped : m.Typed := by
      rcases hm with hnode | ⟨s, rfl⟩
      · exact hd m hnode
      · exact .chars s
    cases hn with
    | text hitems hall =>
      exact .text (forall_mem_concat hitems hitem) (forall_mem_concat hall htyped)
  · exact hdivided .cells _ _ _ hn hm
  · exact hdivided .rows _ _ _ hn hm
  · cases hm

theorem typed_addRule {n n' : LabelNode} (hn : n.Typed) (h : n.addRule = .ok n') : n'.Typed := by
  have hdivided : ∀ (l : Layer) (attributes : Table) (content : List LabelNode),
      (tag l.outer attributes content).Typed →
        (tag l.outer attributes (content ++ [bare l.rule []])).Typed := by
    intro l attributes content htyped
    have hrule : (bare l.rule []).Typed :=
      typed_bare (admits_nil (.inl (by cases l <;> rfl))) (by simp)
    cases htyped with
    | tag hcontent hall =>
      exact .tag (admits_concat hcontent (.inr (by simp [bare, isTag])))
        (forall_mem_concat hall hrule)
  obtain ⟨rule, hrule, rfl⟩ := addRule_eq_ok h
  unfold ruleOf? at hrule
  split at hrule <;> cases hrule
  · exact hdivided .rows _ _ hn
  · exact hdivided .cells _ _ hn

/-- A tag that is not divided and does not stand alone holds one node. -/
theorem typed_single {t : Tag} {n : LabelNode} (hvoid : t.isVoid = false)
    (hlayer : ∀ l : Layer, t ≠ l.outer) (hcell : t = .tableCell → n.isCellContent = true)
    (htable : t.wrapsTable = true → n.isTable = true) (hn : n.Typed) : (bare t [n]).Typed := by
  refine typed_bare ⟨?_, fun l hl => absurd hl (hlayer l), fun _ _ => ⟨n, rfl⟩, ?_, ?_⟩
    (List.forall_mem_singleton.2 hn)
  · intro h
    rw [hvoid] at h
    cases h
  · exact fun h => List.forall_mem_singleton.2 (hcell h)
  · exact fun h => List.forall_mem_singleton.2 (htable h)

theorem typed_ofTag {t : Tag} {args : List Datum} {n : LabelNode}
    (hargs : ∀ m, .node m ∈ args → m.Typed) (h : ofTag t args = .ok n)
    (hparts : n.children.all isPart = true) : n.Typed := by
  rcases ofTag_cases h hparts with ⟨hdivided, h⟩ | ⟨hvoid, rfl⟩ |
    ⟨m, rfl, hm, hvoid, hdivided, hcell, htable⟩
  · refine addAll_preserves typed_add (typed_bare (admits_nil (.inr ?_)) (by simp)) hargs h
    rcases hdivided with rfl | rfl
    · exact ⟨.cells, rfl⟩
    · exact ⟨.rows, rfl⟩
  · exact typed_bare (admits_nil (.inl hvoid)) (by simp)
  · have hlayer : ∀ l : Layer, t ≠ l.outer := by
      rintro l rfl
      cases l <;> simp [Layer.outer] at hdivided
    refine typed_single hvoid hlayer hcell htable ?_
    rcases hm with rfl | hm
    · exact typed_noText
    · exact hargs m hm

theorem typed_of {className : String} {args : List Datum} {n : LabelNode}
    (hargs : ∀ m, .node m ∈ args → m.Typed) (h : LabelNode.of className args = .ok n)
    (hparts : n.children.all isPart = true) : n.Typed := by
  rcases of_cases h with h | ⟨s, rfl⟩ | ⟨t, h⟩
  · exact addAll_preserves typed_add typed_noText hargs h
  · exact .chars s
  · exact typed_ofTag hargs h hparts

theorem typed_call {n n' : LabelNode} {c : LabelCall} (hn : n.Typed)
    (hargs : ∀ m, .node m ∈ c.arguments → m.Typed) (h : n.call c = .ok n') : n'.Typed := by
  cases c with
  | add d => exact typed_add hn (fun m hm => hargs m (hm ▸ List.mem_cons_self)) h
  | addRule => exact typed_addRule hn h
  | setAttribute attr d =>
    obtain ⟨t, attributes, content, table, rfl, -, rfl⟩ := setAttribute_eq_ok h
    cases hn with
    | tag hcontent hall => exact .tag hcontent hall

theorem planned_call {n n' : LabelNode} {c : LabelCall} (hn : n.Planned)
    (hargs : ∀ m, .node m ∈ c.arguments → m.Planned) (h : n.call c = .ok n') : n'.Planned := by
  cases c with
  | add d => exact planned_add hn (fun m hm => hargs m (hm ▸ List.mem_cons_self)) h
  | addRule => exact planned_addRule hn h
  | setAttribute attr d => exact planned_setAttribute hn h

/-! ### Parts -/

/-- What holds of all nodes of a list still holds if one of them is replaced. -/
theorem forall_mem_set {P : LabelNode → Prop} {ns : List LabelNode} {i : Nat} {m m' : LabelNode}
    (hi : ns[i]? = some m) (hns : ∀ n ∈ ns, P n) (hm : P m → P m') : ∀ n ∈ ns.set i m', P n := by
  intro n hn
  rcases List.mem_or_eq_of_mem_set hn with hn | rfl
  · exact hns n hn
  · exact hm (hns m (List.mem_of_getElem? hi))

/-- A node may stand in the place of another one of its kind. -/
theorem admits_set {t : Tag} {content : List LabelNode} {i : Nat} {m m' : LabelNode}
    (hi : content[i]? = some m) (h : t.Admits content) (hm : SameKind m m') :
    t.Admits (content.set i m') := by
  refine ⟨fun hvoid => ?_, fun l hl => ?_, fun hvoid hl => ?_, fun ht => ?_, fun ht => ?_⟩
  · rw [h.void hvoid, List.set_nil]
  · exact forall_mem_set hi (h.divided l hl) fun hm' => by rwa [hm.isTag, hm.isTag]
  · obtain ⟨n, hn⟩ := h.single hvoid hl
    exact List.length_eq_one_iff.1 (by rw [List.length_set, hn, List.length_singleton])
  · exact forall_mem_set hi (h.cell ht) fun hm' => by rwa [hm.isCellContent]
  · exact forall_mem_set hi (h.fontTable ht) fun hm' => by rwa [hm.isTable]

theorem typed_callAt {n n' : LabelNode} {c : LabelCall} {path : List Nat} (hn : n.Typed)
    (hargs : ∀ m, .node m ∈ c.arguments → m.Typed) (h : n.callAt c path = .ok n') : n'.Typed := by
  induction path generalizing n n' with
  | nil => exact typed_call hn hargs h
  | cons i path ih =>
    obtain ⟨items, m, m', rfl, hi, hm', rfl⟩ | ⟨t, attributes, content, m, m', rfl, hi, hm', rfl⟩ :=
      callAt_cons h
    · cases hn with
      | text hitems hall =>
        refine .text (forall_mem_set hi hitems fun hm => ?_)
          (forall_mem_set hi hall fun hm => ih hm hm')
        rwa [(callAt_sameKind hm').isTextItem]
    · cases hn with
      | tag hcontent hall =>
        exact .tag (admits_set hi hcontent (callAt_sameKind hm'))
          (forall_mem_set hi hall fun hm => ih hm hm')

theorem planned_callAt {n n' : LabelNode} {c : LabelCall} {path : List Nat} (hn : n.Planned)
    (hargs : ∀ m, .node m ∈ c.arguments → m.Planned) (h : n.callAt c path = .ok n') :
    n'.Planned := by
  induction path generalizing n n' with
  | nil => exact planned_call hn hargs h
  | cons i path ih =>
    obtain ⟨items, m, m', rfl, hi, hm', rfl⟩ | ⟨t, attributes, content, m, m', rfl, hi, hm', rfl⟩ :=
      callAt_cons h
    · exact planned_text.2 (forall_mem_set hi (planned_text.1 hn) fun hm => ih hm hm')
    · obtain ⟨hws, hcontent⟩ := planned_tag.1 hn
      exact planned_tag.2 ⟨hws, forall_mem_set hi hcontent fun hm => ih hm hm'⟩

/-- **What can be made is typed.** -/
theorem Constructed.typed {n : LabelNode} (h : n.Constructed) : n.Typed := by
  induction h with
  | of _ h hparts ih => exact typed_of ih h hparts
  | call _ _ h ihn ihargs => exact typed_callAt ihn ihargs h

/-- What can be made has a plan. -/
theorem Constructed.planned {n : LabelNode} (h : n.Constructed) : n.Planned := by
  induction h with
  | of _ h hparts ih => exact planned_of ih h hparts
  | call _ _ h ihn ihargs => exact planned_callAt ihn ihargs h

/-! ### Labels -/

mutual

/-- Whether the objects in a label that are no parts of it can be written.  What a tag that stands
alone holds is not written. -/
def isWritable : LabelNode → Bool
  | chars _ => true
  | text items => allWritable items
  | tag t _ content => t.isVoid || allWritable content
  | foreign written => written.isOk

/-- Whether they can be written in all nodes. -/
def allWritable : List LabelNode → Bool
  | [] => true
  | n :: ns => n.isWritable && allWritable ns

end

theorem allWritable_iff {ns : List LabelNode} :
    allWritable ns = true ↔ ∀ n ∈ ns, n.isWritable = true := by
  induction ns with
  | nil => simp [allWritable]
  | cons n ns ih => simp [allWritable, ih]

mutual

/-- The nodes that can be written. -/
theorem exists_render_iff (n : LabelNode) : (∃ s, n.render = .ok s) ↔ n.isWritable = true := by
  cases n with
  | chars s => simp [render, isWritable]
  | text items =>
    rw [render, isWritable]
    exact exists_renderAll_iff items
  | tag t attributes content =>
    rw [render, isWritable, Bool.or_eq_true, ← exists_renderAll_iff content]
    by_cases hvoid : t.isVoid = true
    · simp [hvoid]
    · simp only [hvoid, Bool.false_eq_true, if_false, false_or]
      exact Outcome.exists_bind_pure_iff
  | foreign written => cases written <;> simp [render, isWritable, Except.isOk, Except.toBool]

theorem exists_renderAll_iff (ns : List LabelNode) :
    (∃ s, renderAll ns = .ok s) ↔ allWritable ns = true := by
  cases ns with
  | nil => simp [renderAll, allWritable]
  | cons n ns =>
    rw [renderAll, allWritable, Bool.and_eq_true, ← exists_render_iff n, ← exists_renderAll_iff ns]
    constructor
    · rintro ⟨s, h⟩
      obtain ⟨head, hhead, h⟩ := Outcome.bind_eq_ok.1 h
      exact ⟨⟨head, hhead⟩, Outcome.exists_bind_pure_iff.1 ⟨s, h⟩⟩
    · rintro ⟨⟨head, hhead⟩, rest, hrest⟩
      exact ⟨head ++ rest, by rw [hhead, hrest]; rfl⟩

end

/-- Typed nodes hold parts of labels only. -/
theorem Typed.isWritable {n : LabelNode} (hn : n.Typed) : n.isWritable = true := by
  induction hn with
  | chars s => rfl
  | text _ _ ih =>
    rw [LabelNode.isWritable, allWritable_iff]
    exact ih
  | tag _ _ ih =>
    rw [LabelNode.isWritable, Bool.or_eq_true, allWritable_iff]
    exact .inr ih

end LabelNode

/-- The content of a label is the argument, or a text of one string. -/
theorem labelContent_eq_ok {d : Datum} {n : LabelNode} (h : labelContent d = .ok n) :
    n.isLabelContent = true ∧ (d = .node n ∨ ∃ s, n = .text [.chars s]) := by
  unfold labelContent at h
  split at h
  · cases h
    exact ⟨rfl, .inr ⟨_, rfl⟩⟩
  · obtain ⟨rfl, hallowed⟩ := LabelNode.nodeOf_eq_ok h
    exact ⟨hallowed, .inl rfl⟩

end DotWriter
