import DotWriter.Label.Build
import DotWriter.Proofs.Attribute.History
import DotWriter.Proofs.Label.Alphabet
import DotWriter.Proofs.Label.Markup

/-!
# Labels and how they were made

A node of a label keeps the texts of its attributes only.  A `LabelPlan` is a node together with the
calls that wrote them.

* `LabelPlan.build` : the node of a plan;
* `LabelPlan.written`, `LabelPlan.render_build` : what the node is written as;
* `LabelPlan.markup` : what a reader of the label must see: the tags, their attributes with the
  values that were given, and the strings;
* `LabelNode.Made` : the nodes that can be made by the operations of labels, of parts of labels
  only;
* `LabelNode.ofTag_cases`, `LabelNode.addAll_preserves` : what constructors return, and what appending
  keeps;
* `Made.exists_plan` : every one of them has a plan.
-/

namespace DotWriter

/-- A node of a label, with the calls that wrote the attributes of its tags. -/
inductive LabelPlan
  | chars (text : String)
  | text (items : List LabelPlan)
  | tag (tag : Tag) (writes : List Write) (content : List LabelPlan)

/-- The attributes of a tag after calls on a new one. -/
def Tag.tableAfter (t : Tag) (ws : List Write) : Table := Table.run (t.supported.map .html) ws

/-- The calls that are not refused. -/
def acceptedWrites (legal : List AttributeId) (ws : List Write) : List Write :=
  ws.filter fun w => (w.text? legal).isSome

/-- The calls that a tag keeps something of. -/
def Tag.kept (t : Tag) (ws : List Write) : List Write :=
  lastWrites (acceptedWrites (t.supported.map .html) ws)

/-- What is read back of the value that a call gives. -/
def Write.shownText (w : Write) : String :=
  match w.2 with
  | .value v => v.shownText.toOption.getD ""
  | _ => ""

/-- The attributes of a tag after calls, with the values that were given last. -/
def Tag.shownAttributes (t : Tag) (ws : List Write) : List (String × String) :=
  (t.kept ws).map fun w => (w.1.name, w.shownText)

namespace LabelPlan

mutual

/-- The node of a plan. -/
def build : LabelPlan → LabelNode
  | chars s => .chars s
  | text items => .text (buildAll items)
  | tag t ws content => .tag t (t.tableAfter ws) (buildAll content)

/-- The nodes of plans. -/
def buildAll : List LabelPlan → List LabelNode
  | [] => []
  | p :: ps => build p :: buildAll ps

end

mutual

/-- What the node of a plan is written as. -/
def written : LabelPlan → String
  | chars s => escapeHtml s
  | text items => writtenAll items
  | tag t ws content =>
    let head := "<" ++ t.spelling ++ (t.tableAfter ws).render
    if t.isVoid then head ++ "/>"
    else head ++ ">" ++ writtenAll content ++ "</" ++ t.spelling ++ ">"

/-- The nodes of plans, one after the other. -/
def writtenAll : List LabelPlan → String
  | [] => ""
  | p :: ps => p.written ++ writtenAll ps

end

mutual

/-- The strings and tags of a plan in order. -/
def parts : LabelPlan → List Markup
  | chars s => [.chars (cleanText s)]
  | text items => partsAll items
  | tag t ws content => [
    if t.isVoid then .void t.spelling (t.shownAttributes ws)
    else .element t.spelling (t.shownAttributes ws) (Markup.join (partsAll content))]

/-- The strings and tags of plans in order. -/
def partsAll : List LabelPlan → List Markup
  | [] => []
  | p :: ps => parts p ++ partsAll ps

end

/-- What a reader of the label must see. -/
def markup (p : LabelPlan) : List Markup := Markup.join p.parts

theorem buildAll_eq (ps : List LabelPlan) : buildAll ps = ps.map build := by
  induction ps with
  | nil => rfl
  | cons p ps ih => rw [buildAll, ih, List.map_cons]

mutual

/-- The node of a plan can be written. -/
theorem render_build (p : LabelPlan) : p.build.render = .ok p.written := by
  cases p with
  | chars s => rfl
  | text items =>
    rw [build, LabelNode.render, renderAll_buildAll items, written]
  | tag t ws content =>
    rw [build, LabelNode.render, renderAll_buildAll content, written]
    split_ifs <;> rfl

/-- The nodes of plans can be written one after the other. -/
theorem renderAll_buildAll (ps : List LabelPlan) :
    LabelNode.renderAll (buildAll ps) = .ok (writtenAll ps) := by
  cases ps with
  | nil => rfl
  | cons p ps =>
    rw [buildAll, LabelNode.renderAll, render_build p, renderAll_buildAll ps, writtenAll]
    rfl

end

theorem renderLabel_build (p : LabelPlan) :
    Value.renderLabel p.build = .ok ("<" ++ p.written ++ ">") := by
  rw [Value.renderLabel, render_build]
  rfl

end LabelPlan

/-! ### Every node has a plan -/

namespace LabelNode

/-- Whether the node is a part of a label. -/
def isPart : LabelNode → Bool
  | foreign _ => false
  | _ => true

/-- The nodes that a node holds. -/
def children : LabelNode → List LabelNode
  | text items => items
  | tag _ _ content => content
  | _ => []

/-- The nodes that can be made of parts of labels: by constructors, by appending, by drawing rules
and by writing attributes.  A node that is held by another one may still be changed, and shows as
changed there. -/
inductive Made : LabelNode → Prop
  | of {className : String} {args : List Datum} {n : LabelNode}
    (hargs : ∀ m, .node m ∈ args → Made m) (h : LabelNode.of className args = .ok n)
    (hparts : n.children.all isPart = true) : Made n
  | add {n n' : LabelNode} {d : Datum} (hn : Made n) (hd : ∀ m, d = .node m → Made m)
    (h : n.add d = .ok n') : Made n'
  | addRule {n n' : LabelNode} (hn : Made n) (h : n.addRule = .ok n') : Made n'
  | setAttribute {n n' : LabelNode} {attr : AttributeId} {d : Datum} (hn : Made n)
    (h : n.setAttribute attr d = .ok n') : Made n'
  | item {before after : List LabelNode} {m m' : LabelNode}
    (hn : Made (.text (before ++ m :: after))) (hm : Made m') :
    Made (.text (before ++ m' :: after))
  | content {t : Tag} {attributes : Table} {before after : List LabelNode} {m m' : LabelNode}
    (hn : Made (.tag t attributes (before ++ m :: after))) (hm : Made m') :
    Made (.tag t attributes (before ++ m' :: after))

/-! ### What constructors and calls return -/

theorem forall_mem_concat {α : Type} {P : α → Prop} {xs : List α} {x : α} (hxs : ∀ y ∈ xs, P y)
    (hx : P x) : ∀ y ∈ xs ++ [x], P y :=
  List.forall_mem_append.2 ⟨hxs, List.forall_mem_singleton.2 hx⟩

/-- What is allowed is the argument itself. -/
theorem nodeOf_eq_ok {allowed : LabelNode → Bool} {fault : Shown → Fault} {d : Datum}
    {m : LabelNode} (h : nodeOf allowed fault d = .ok m) : d = .node m ∧ allowed m = true := by
  unfold nodeOf at h
  split at h
  · split_ifs at h with hallowed
    cases h
    exact ⟨rfl, hallowed⟩
  · exact absurd h (Datum.refuse_ne_ok _)

/-- An item of a text is a string or the argument itself. -/
theorem itemOf_eq_ok {d : Datum} {m : LabelNode} (h : itemOf d = .ok m) :
    m.isTextItem = true ∧ (d = .node m ∨ ∃ s, m = chars s) := by
  unfold itemOf at h
  split at h
  · cases h
    exact ⟨rfl, .inr ⟨_, rfl⟩⟩
  · split_ifs at h with hitem
    cases h
    exact ⟨hitem, .inl rfl⟩
  · exact absurd h (Datum.refuse_ne_ok _)

/-- What is appended is a string or the argument itself. -/
theorem checkedItem_cases {parent m : LabelNode} {d : Datum} (h : parent.checkedItem d = .ok m) :
    d = .node m ∨ ∃ s, m = chars s := by
  unfold checkedItem at h
  split at h
  · exact (itemOf_eq_ok h).2
  · exact .inl (nodeOf_eq_ok h).1
  · exact .inl (nodeOf_eq_ok h).1
  · cases h

/-- What a cell holds is a text of nothing or the argument itself. -/
theorem cellContent_eq_ok {d : Datum} {m : LabelNode} (h : cellContent d = .ok m) :
    m.isCellContent = true ∧ (m = noText ∨ d = .node m) := by
  unfold cellContent at h
  split at h
  · cases h
    exact ⟨rfl, .inl rfl⟩
  · obtain ⟨rfl, hallowed⟩ := nodeOf_eq_ok h
    exact ⟨hallowed, .inr rfl⟩

/-- What a tag around a text holds, if it is a part of a label, is a text of nothing or the argument
itself. -/
theorem wrappedText_cases {d : Datum} (h : (wrappedText d).isPart = true) :
    wrappedText d = noText ∨ d = .node (wrappedText d) := by
  unfold wrappedText at h ⊢
  split at h
  · exact .inl rfl
  · exact .inr rfl
  · cases h

/-- A property that appending an argument keeps is kept by appending several ones. -/
theorem addAll_preserves {P : LabelNode → Prop}
    (hadd : ∀ {n n' : LabelNode} {d : Datum}, P n → (∀ m, d = .node m → P m) →
      n.add d = .ok n' → P n')
    {ds : List Datum} {n n' : LabelNode} (hn : P n) (hds : ∀ m, .node m ∈ ds → P m)
    (h : n.addAll ds = .ok n') : P n' := by
  induction ds generalizing n with
  | nil =>
    cases h
    exact hn
  | cons d ds ih =>
    obtain ⟨n₁, hn₁, h⟩ := Outcome.bind_eq_ok.1 h
    refine ih (hadd hn (fun m hm => hds m (hm ▸ List.mem_cons_self)) hn₁) ?_ h
    exact fun m hm => hds m (List.mem_cons_of_mem d hm)

theorem addRule_eq_ok {n n' : LabelNode} (h : n.addRule = .ok n') :
    ∃ rule, n.ruleOf? = some rule ∧ n' = n.append (bare rule []) := by
  unfold addRule at h
  split at h
  · rename_i rule hrule
    cases h
    exact ⟨rule, hrule, rfl⟩
  · cases h

theorem setAttribute_eq_ok {n n' : LabelNode} {attr : AttributeId} {d : Datum}
    (h : n.setAttribute attr d = .ok n') :
    ∃ t attributes content table, n = tag t attributes content ∧
      leaving (attributes.add attr d) = .ok table ∧ n' = tag t table content := by
  cases n with
  | tag t attributes content =>
    obtain ⟨table, hadd, h⟩ := Outcome.bind_eq_ok.1 h
    cases h
    exact ⟨t, attributes, content, table, rfl, hadd, rfl⟩
  | _ => cases h

/-- A new tag gets rows or cells one by one, or stands alone, or holds one part of a label, which is
a text of nothing or the argument itself. -/
theorem ofTag_cases {t : Tag} {args : List Datum} {n : LabelNode} (h : ofTag t args = .ok n)
    (hparts : n.children.all isPart = true) :
    ((t = .tableRow ∨ t = .table) ∧ (bare t []).addAll args = .ok n) ∨
    (t.isVoid = true ∧ n = bare t []) ∨
    ∃ m, n = bare t [m] ∧ (m = noText ∨ .node m ∈ args) ∧ t.isVoid = false ∧
      ¬ (t = .tableRow ∨ t = .table) ∧ (t = .tableCell → m.isCellContent = true) ∧
      (t.wrapsTable = true → m.isTable = true) := by
  unfold ofTag at h
  split at h
  · rename_i hdivided
    exact .inl ⟨hdivided, h⟩
  rename_i hdivided
  split at h
  -- a tag that stands alone has no argument, every other one has at most one
  · rename_i hvoid
    split at h
    · cases h
      exact .inr (.inl ⟨hvoid, rfl⟩)
    · cases h
  rename_i hvoid
  rw [Bool.not_eq_true] at hvoid
  refine .inr (.inr ?_)
  split at h
  · split_ifs at h with htable
    cases h
    exact ⟨noText, rfl, .inl rfl, hvoid, hdivided, fun _ => rfl, fun h => absurd h htable⟩
  · rename_i d
    have hmem : ∀ {m}, d = .node m → .node m ∈ [d] := fun hd => hd ▸ List.mem_cons_self
    split_ifs at h with htable hcell <;> obtain ⟨m, hm, h⟩ := Outcome.bind_eq_ok.1 h <;> cases h
    · obtain ⟨hd, hallowed⟩ := nodeOf_eq_ok hm
      refine ⟨m, rfl, .inr (hmem hd), hvoid, hdivided, fun hcell => ?_, fun _ => hallowed⟩
      rw [hcell] at htable
      cases htable
    · obtain ⟨hallowed, hd⟩ := cellContent_eq_ok hm
      exact ⟨m, rfl, hd.imp_right hmem, hvoid, hdivided, fun _ => hallowed,
        fun h => absurd h htable⟩
    · cases hm
      have hd := wrappedText_cases (by simpa [bare, children] using hparts)
      exact ⟨_, rfl, hd.imp_right hmem, hvoid, hdivided, fun h => absurd h hcell,
        fun h => absurd h htable⟩
  · cases h

/-- A new node is a text, a string or a tag. -/
theorem of_cases {className : String} {args : List Datum} {n : LabelNode}
    (h : LabelNode.of className args = .ok n) :
    noText.addAll args = .ok n ∨ (∃ s, n = chars s) ∨ ∃ t, ofTag t args = .ok n := by
  unfold LabelNode.of at h
  split at h
  · exact .inl h
  split at h
  · split at h
    · cases h
      exact .inr (.inl ⟨_, rfl⟩)
    · cases h
  split at h
  · exact .inr (.inr ⟨_, h⟩)
  · cases h

/-! ### Nodes with plans -/

/-- The node of some plan. -/
def Planned (n : LabelNode) : Prop := ∃ p : LabelPlan, p.build = n

theorem planned_all {ns : List LabelNode} :
    (∃ ps, LabelPlan.buildAll ps = ns) ↔ ∀ n ∈ ns, n.Planned := by
  constructor
  · rintro ⟨ps, rfl⟩ n hn
    rw [LabelPlan.buildAll_eq] at hn
    obtain ⟨p, -, hp⟩ := List.mem_map.1 hn
    exact ⟨p, hp⟩
  · intro h
    induction ns with
    | nil => exact ⟨[], rfl⟩
    | cons n ns ih =>
      obtain ⟨⟨p, rfl⟩, hns⟩ := List.forall_mem_cons.1 h
      obtain ⟨ps, rfl⟩ := ih hns
      exact ⟨p :: ps, rfl⟩

theorem planned_chars (s : String) : (chars s).Planned := ⟨.chars s, rfl⟩

theorem planned_text {items : List LabelNode} :
    (text items).Planned ↔ ∀ n ∈ items, n.Planned := by
  rw [← planned_all]
  constructor
  · rintro ⟨p, hp⟩
    cases p <;> cases hp
    exact ⟨_, rfl⟩
  · rintro ⟨ps, rfl⟩
    exact ⟨.text ps, rfl⟩

theorem planned_tag {t : Tag} {attributes : Table} {content : List LabelNode} :
    (tag t attributes content).Planned ↔
      (∃ ws, t.tableAfter ws = attributes) ∧ ∀ n ∈ content, n.Planned := by
  rw [← planned_all]
  constructor
  · rintro ⟨p, hp⟩
    cases p <;> cases hp
    exact ⟨⟨_, rfl⟩, _, rfl⟩
  · rintro ⟨⟨ws, rfl⟩, ps, rfl⟩
    exact ⟨.tag t ws ps, rfl⟩

theorem planned_bare {t : Tag} {content : List LabelNode} (h : ∀ n ∈ content, n.Planned) :
    (bare t content).Planned := planned_tag.2 ⟨⟨[], rfl⟩, h⟩

theorem planned_noText : noText.Planned := planned_text.2 (by simp)

theorem planned_append {n m : LabelNode} (hn : n.Planned) (hm : m.Planned) :
    (n.append m).Planned := by
  cases n with
  | chars s => exact hn
  | foreign written => exact hn
  | text items => exact planned_text.2 (forall_mem_concat (planned_text.1 hn) hm)
  | tag t attributes content =>
    obtain ⟨hws, hcontent⟩ := planned_tag.1 hn
    exact planned_tag.2 ⟨hws, forall_mem_concat hcontent hm⟩

theorem planned_add {n n' : LabelNode} {d : Datum} (hn : n.Planned)
    (hd : ∀ m, d = .node m → m.Planned) (h : n.add d = .ok n') : n'.Planned := by
  obtain ⟨m, hm, h⟩ := Outcome.bind_eq_ok.1 h
  cases h
  refine planned_append hn ?_
  rcases checkedItem_cases hm with hnode | ⟨s, rfl⟩
  · exact hd m hnode
  · exact planned_chars s

theorem planned_addRule {n n' : LabelNode} (hn : n.Planned) (h : n.addRule = .ok n') :
    n'.Planned := by
  obtain ⟨rule, -, rfl⟩ := addRule_eq_ok h
  exact planned_append hn (planned_bare (by simp))

theorem planned_ofTag {t : Tag} {args : List Datum} {n : LabelNode}
    (hargs : ∀ m, .node m ∈ args → m.Planned) (h : ofTag t args = .ok n)
    (hparts : n.children.all isPart = true) : n.Planned := by
  rcases ofTag_cases h hparts with ⟨-, h⟩ | ⟨-, rfl⟩ | ⟨m, rfl, hm, -⟩
  · exact addAll_preserves planned_add (planned_bare (by simp)) hargs h
  · exact planned_bare (by simp)
  · refine planned_bare (List.forall_mem_singleton.2 ?_)
    rcases hm with rfl | hm
    · exact planned_noText
    · exact hargs m hm

theorem planned_of {className : String} {args : List Datum} {n : LabelNode}
    (hargs : ∀ m, .node m ∈ args → m.Planned) (h : LabelNode.of className args = .ok n)
    (hparts : n.children.all isPart = true) : n.Planned := by
  rcases of_cases h with h | ⟨s, rfl⟩ | ⟨t, h⟩
  · exact addAll_preserves planned_add planned_noText hargs h
  · exact planned_chars s
  · exact planned_ofTag hargs h hparts

theorem planned_setAttribute {n n' : LabelNode} {attr : AttributeId} {d : Datum} (hn : n.Planned)
    (h : n.setAttribute attr d = .ok n') : n'.Planned := by
  obtain ⟨t, attributes, content, table, rfl, hadd, rfl⟩ := setAttribute_eq_ok h
  obtain ⟨⟨ws, rfl⟩, hcontent⟩ := planned_tag.1 hn
  refine planned_tag.2 ⟨⟨ws ++ [(attr, d)], ?_⟩, hcontent⟩
  unfold Tag.tableAfter at hadd ⊢
  rw [Table.run_concat, Table.attempt, Outcome.leaving_eq_ok.1 hadd]

/-- **Every node that can be made of parts of labels has a plan.** -/
theorem Made.exists_plan {n : LabelNode} (h : n.Made) : ∃ p : LabelPlan, p.build = n := by
  -- a node that another one holds may be replaced by any node with a plan
  have hreplace : ∀ {before after : List LabelNode} {m m' : LabelNode},
      (∀ k ∈ before ++ m :: after, k.Planned) → m'.Planned →
        ∀ k ∈ before ++ m' :: after, k.Planned := by
    intro before after m m' hall hm' k hk
    rcases List.mem_append.1 hk with hk | hk
    · exact hall k (List.mem_append_left _ hk)
    · rcases List.mem_cons.1 hk with rfl | hk
      · exact hm'
      · exact hall k (List.mem_append_right _ (List.mem_cons_of_mem m hk))
  induction h with
  | of _ h hparts ih => exact planned_of ih h hparts
  | add _ _ h ihn ihd => exact planned_add ihn ihd h
  | addRule _ h ih => exact planned_addRule ih h
  | setAttribute _ h ih => exact planned_setAttribute ih h
  | item _ _ ihn ihm => exact planned_text.2 (hreplace (planned_text.1 ihn) ihm)
  | content _ _ ihn ihm =>
    obtain ⟨hws, hcontent⟩ := planned_tag.1 ihn
    exact planned_tag.2 ⟨hws, hreplace hcontent ihm⟩

end LabelNode

end DotWriter
