import DotWriter.Proofs.Label.Grammar
import DotWriter.Proofs.Label.RoundTrip

/-!
# Derivations of labels

A label that can be made is read back as the markup of its plan.  Its derivations are found by
induction on its node, tag by tag.

* `LabelPlan.markup_tag`, `LabelPlan.join_tags` : the markup of a tag, and of tags in a row;
* `LabelPlan.Divided` : rows, cells and rules, each with what they derive;
* `LabelPlan.isDerived_tag` : a tag has a derivation if its content has;
* `LabelPlan.derives_of_typed` : **typed nodes have derivations** in the relaxed grammar, and complete
  ones in the documented grammar.
-/

namespace DotWriter

/-! ### Markup of plans -/

namespace Markup

/-- Strings that stand next to each other are put together, and nothing else changes. -/
theorem mem_joinFrom {run : String} {parts : List Markup} {m : Markup}
    (h : m ∈ joinFrom run parts) : (∃ s, m = .chars s) ∨ m ∈ parts := by
  have hrun : ∀ run, m ∈ ofRun run → ∃ s, m = .chars s := by
    intro run hm
    unfold ofRun at hm
    split_ifs at hm
    · exact absurd hm List.not_mem_nil
    · exact ⟨run, List.mem_singleton.1 hm⟩
  induction parts generalizing run with
  | nil => exact .inl (hrun run h)
  | cons part parts ih =>
    cases part with
    | chars s => exact (ih h).imp_right (List.mem_cons_of_mem _)
    | _ =>
      rcases List.mem_append.1 h with h | h
      · exact .inl (hrun run h)
      · rcases List.mem_cons.1 h with rfl | h
        · exact .inr List.mem_cons_self
        · exact (ih h).imp_right (List.mem_cons_of_mem _)

/-- If there are no strings, nothing is put together. -/
theorem join_eq_self {parts : List Markup} (h : ∀ m ∈ parts, ∀ s, m ≠ .chars s) :
    join parts = parts := by
  unfold join
  induction parts with
  | nil => rfl
  | cons part parts ih =>
    obtain ⟨hpart, hparts⟩ := List.forall_mem_cons.1 h
    cases part with
    | chars s => exact absurd rfl (hpart s)
    | _ => exact congrArg _ (ih hparts)

theorem element_inj {name name' : String} {attributes attributes' : List (String × String)}
    {ms ms' : List Markup}
    (h : [element name attributes ms] = [element name' attributes' ms']) :
    name = name' ∧ ms = ms' := by
  obtain ⟨hname, -, hms⟩ := element.inj (List.cons.inj h).1
  exact ⟨hname, hms⟩

end Markup

namespace LabelPlan

/-- A tag is one piece of markup. -/
theorem markup_tag (t : Tag) (ws : List Write) (content : List LabelPlan) :
    (tag t ws content).markup = [
      if t.isVoid then .void t.spelling (t.shownAttributes ws)
      else .element t.spelling (t.shownAttributes ws) (Markup.join (partsAll content))] := by
  rw [markup, parts]
  refine Markup.join_eq_self fun m hm s => ?_
  rw [List.mem_singleton.1 hm]
  split_ifs <;> simp

theorem markup_tag_eq_parts (t : Tag) (ws : List Write) (content : List LabelPlan) :
    (tag t ws content).markup = (tag t ws content).parts := by
  rw [markup_tag, parts]

theorem partsAll_eq (ps : List LabelPlan) : partsAll ps = ps.flatMap parts := by
  induction ps with
  | nil => rfl
  | cons p ps ih => rw [partsAll, ih, List.flatMap_cons]

/-- The plan of a tag. -/
theorem exists_of_isTag {p : LabelPlan} {t : Tag} (h : p.build.isTag t = true) :
    ∃ ws content, p = tag t ws content := by
  cases p with
  | tag u ws content =>
    obtain rfl : u = t := by simpa [build, LabelNode.isTag] using h
    exact ⟨ws, content, rfl⟩
  | _ => cases h

/-- Tags that stand next to each other. -/
theorem join_tags {ps : List LabelPlan} (h : ∀ p ∈ ps, ∃ t, p.build.isTag t = true) :
    Markup.join (partsAll ps) = ps.flatMap markup := by
  have hmarkup : ∀ p ∈ ps, p.markup = p.parts ∧ ∀ m ∈ p.parts, ∀ s, m ≠ .chars s := by
    intro p hp
    obtain ⟨t, ht⟩ := h p hp
    obtain ⟨ws, content, rfl⟩ := exists_of_isTag ht
    refine ⟨markup_tag_eq_parts t ws content, fun m hm s => ?_⟩
    rw [← markup_tag_eq_parts, markup_tag] at hm
    rw [List.mem_singleton.1 hm]
    split_ifs <;> simp
  rw [partsAll_eq, List.flatMap_congr fun p hp => (hmarkup p hp).1]
  refine Markup.join_eq_self fun m hm => ?_
  obtain ⟨p, hp, hm⟩ := List.mem_flatMap.1 hm
  exact (hmarkup p hp).2 m hm

end LabelPlan

/-! ### Derivations of labels -/

namespace LabelPlan

/-- The rows of a table with their rules, or the cells of a row, each with its derivation. -/
def Divided (relaxed : Bool) (l : Layer) (ps : List LabelPlan) : Prop :=
  ∀ p ∈ ps, (p.build.isTag l.rule = false ∧ Derives relaxed (.division l) p.markup) ∨
    (p.build.isTag l.rule = true ∧ ∃ attributes, p.markup = [.void l.rule.spelling attributes])

variable {l : Layer}

theorem Divided.derives_relaxed {ps : List LabelPlan} (h : Divided true l ps) :
    Derives true (.divisions l) (ps.flatMap markup) := by
  induction ps using List.reverseRecOn with
  | nil => exact .noDivisions rfl l
  | append_singleton ps p ih =>
    obtain ⟨hps, hp⟩ := List.forall_mem_append.1 h
    rw [List.flatMap_append, List.flatMap_singleton]
    rcases hp p List.mem_cons_self with ⟨-, hdivision⟩ | ⟨-, attributes, hrule⟩
    · exact .next (ih hps) hdivision
    · rw [hrule]
      exact .looseRule rfl (ih hps) attributes

theorem Divided.derives : {ps : List LabelPlan} → Divided false l ps →
    LabelNode.separated l.rule (ps.map build) = true →
      Derives false (.divisions l) (ps.flatMap markup)
  | [], _, h => by cases h
  | [p], hps, h => by
    have hnot : p.build.isTag l.rule = false := by simpa [LabelNode.separated] using h
    rw [List.flatMap_singleton]
    rcases hps p List.mem_cons_self with ⟨-, hdivision⟩ | ⟨hrule, -⟩
    · exact .first hdivision
    · rw [hnot] at hrule
      cases hrule
  | p :: q :: rest, hps, h => by
    obtain ⟨hp, hq, hrest⟩ : _ ∧ _ ∧ Divided false l rest := by
      simpa only [Divided, List.forall_mem_cons] using hps
    rw [List.map_cons, List.map_cons, LabelNode.separated, Bool.and_eq_true,
      Bool.not_eq_true'] at h
    obtain ⟨hnot, h⟩ := h
    rcases hp with ⟨-, hdivision⟩ | ⟨hrule, -⟩
    · rw [List.flatMap_cons]
      rcases hq with ⟨hq, hq'⟩ | ⟨hq, attributes, hrule⟩
      · rw [if_neg (by simp [hq])] at h
        exact hdivision.prepend (Divided.derives (List.forall_mem_cons.2 ⟨.inl ⟨hq, hq'⟩, hrest⟩) h)
      · rw [if_pos hq] at h
        rw [List.flatMap_cons, hrule]
        exact hdivision.prepend_ruled attributes (Divided.derives hrest h)
    · rw [hnot] at hrule
      cases hrule

/-- Rows and cells with their rules are derived in the relaxed grammar, and in the documented one if
they are separated. -/
theorem Divided.derives_of {relaxed : Bool} {ps : List LabelPlan} (h : Divided relaxed l ps)
    (hseparated : relaxed = true ∨ LabelNode.separated l.rule (ps.map build) = true) :
    Derives relaxed (.divisions l) (ps.flatMap markup) := by
  cases relaxed with
  | true => exact h.derives_relaxed
  | false => exact h.derives (hseparated.resolve_left Bool.false_ne_true)

theorem buildAll_forall {ps : List LabelPlan} {P : LabelNode → Prop} :
    (∀ n ∈ buildAll ps, P n) ↔ ∀ p ∈ ps, P p.build := by
  rw [buildAll_eq, List.forall_mem_map]

/-- A tag that is not divided holds the plan of its only node. -/
theorem exists_single {ps : List LabelPlan} (h : ∃ n, buildAll ps = [n]) : ∃ p, ps = [p] := by
  obtain ⟨n, hn⟩ := h
  rw [buildAll_eq] at hn
  exact List.length_eq_one_iff.1 (by rw [← List.length_map (f := build), hn, List.length_singleton])

theorem markup_single (t : Tag) (ws : List Write) (p : LabelPlan) (ht : t.isVoid = false) :
    (tag t ws [p]).markup = [.element t.spelling (t.shownAttributes ws) p.markup] := by
  rw [markup_tag, if_neg (by simp [ht]), partsAll_eq, List.flatMap_singleton, markup]

/-- The markup of what is divided. -/
theorem markup_outer (l : Layer) (ws : List Write) {ps : List LabelPlan}
    (h : ∀ p ∈ ps, p.build.isTag l.inner = true ∨ p.build.isTag l.rule = true) :
    (tag l.outer ws ps).markup =
      [.element l.outer.spelling (l.outer.shownAttributes ws) (ps.flatMap markup)] := by
  have hvoid : ¬ l.outer.isVoid = true := by cases l <;> simp [Layer.outer, Tag.isVoid]
  rw [markup_tag, if_neg hvoid, join_tags fun p hp => ?_]
  exact (h p hp).elim (fun h => ⟨_, h⟩) fun h => ⟨_, h⟩

theorem markup_rule {p : LabelPlan} (h : p.build.isTag l.rule = true) :
    ∃ attributes, p.markup = [.void l.rule.spelling attributes] := by
  obtain ⟨ws, content, rfl⟩ := exists_of_isTag h
  exact ⟨l.rule.shownAttributes ws, by rw [markup_tag, if_pos (by cases l <;> rfl)]⟩

/-- The symbol that stands for the node, if there is one, derives its markup. -/
def IsDerived (relaxed : Bool) (p : LabelPlan) : Prop :=
  ∀ symbol, p.build.symbol? = some symbol → Derives relaxed symbol p.markup

/-- What the symbols of the nodes in a divided tag derive. -/
theorem divided_of {relaxed : Bool} {ps : List LabelPlan}
    (hadmits : ∀ p ∈ ps, p.build.isTag l.inner = true ∨ p.build.isTag l.rule = true)
    (h : ∀ p ∈ ps, p.IsDerived relaxed) :
    Divided relaxed l ps := by
  intro p hp
  rcases hadmits p hp with hinner | hrule
  · left
    exact ⟨LabelNode.isTag_rule_of_isInner hinner, h p hp _ (LabelNode.symbol?_of_isInner hinner)⟩
  · exact .inr ⟨hrule, markup_rule hrule⟩

/-- A tag that holds one node. -/
theorem single_of_admits {t : Tag} {ps : List LabelPlan} (hadmits : t.Admits (buildAll ps))
    (h : t.wrapsText = true ∨ t.wrapsTable = true ∨ t = .tableCell) :
    t.isVoid = false ∧ ∃ p, ps = [p] := by
  have hvoid : t.isVoid = false := by
    rcases h with h | h | h
    · cases t <;> first | rfl | cases h
    · cases t <;> first | rfl | cases h
    · rw [h]
      rfl
  refine ⟨hvoid, exists_single (hadmits.single hvoid ?_)⟩
  rintro l rfl
  cases l <;> simp [Layer.outer, Tag.wrapsText, Tag.wrapsTable] at h

/-- Tags that change a font are not spelled like a table. -/
theorem spelling_ne_table {t : Tag} (h : t.wrapsText = true ∨ t.wrapsTable = true) :
    Tag.table.spelling ≠ t.spelling := by
  revert h
  cases t <;> decide

/-- A table is told from a table in tags by its markup. -/
theorem table_of_fontTable {p : LabelPlan} (hp : p.build.isTag .table = true)
    (h : Derives false .fontTable p.markup) : Derives false .table p.markup := by
  rcases h.fontTable_cases with h | ⟨t, attributes, ns, ht, hmarkup, -⟩
  · exact h
  · obtain ⟨ws, content, rfl⟩ := exists_of_isTag hp
    rw [markup_tag] at hmarkup
    exact absurd (Markup.element_inj hmarkup).1 (spelling_ne_table (.inr ht))

/-- A tag that is not void shows as an element. -/
theorem markup_element {p : LabelPlan} {t : Tag} (hp : p.build.isTag t = true)
    (ht : t.isVoid = false) :
    ∃ attributes ns, p.markup = [.element t.spelling attributes ns] := by
  obtain ⟨ws, content, rfl⟩ := exists_of_isTag hp
  exact ⟨_, _, by rw [markup_tag, if_neg (by simp [ht])]⟩

section content

variable {relaxed : Bool} {t : Tag} {content : List LabelPlan}

/-- What is divided has a derivation if its divisions have, and are arranged as the grammar has it. -/
theorem derives_divisions (hadmits : l.outer.Admits (buildAll content))
    (harranged : relaxed = true ∨ LabelNode.arranged l.outer (buildAll content) = true)
    (hcontent : ∀ q ∈ content, q.IsDerived relaxed) (ws : List Write) :
    (tag l.outer ws content).markup =
        [.element l.outer.spelling (l.outer.shownAttributes ws) (content.flatMap markup)] ∧
      Derives relaxed (.divisions l) (content.flatMap markup) := by
  have hdivided := hadmits.divided l rfl
  rw [buildAll_forall] at hdivided
  rw [LabelNode.arranged_outer, buildAll_eq] at harranged
  exact ⟨markup_outer l ws hdivided, (divided_of hdivided hcontent).derives_of harranged⟩

theorem derives_wrappedText (ht : t.wrapsText = true) (hadmits : t.Admits (buildAll content))
    (htext : ∀ q ∈ content, q.build.isText = true) (hcontent : ∀ q ∈ content, q.IsDerived relaxed)
    (ws : List Write) : Derives relaxed .textItem (tag t ws content).markup := by
  obtain ⟨hvoid, q, rfl⟩ := single_of_admits hadmits (.inl ht)
  have hq := LabelNode.symbol?_of_isText (htext q List.mem_cons_self)
  rw [markup_single t ws q hvoid]
  exact .wrappedText ht _ (hcontent q List.mem_cons_self _ hq)

theorem derives_wrappedTable (ht : t.wrapsTable = true) (hadmits : t.Admits (buildAll content))
    (harranged : relaxed = true ∨ LabelNode.arranged t (buildAll content) = true)
    (hcontent : ∀ q ∈ content, q.IsDerived relaxed) (ws : List Write) :
    Derives relaxed .fontTable (tag t ws content).markup := by
  obtain ⟨hvoid, q, rfl⟩ := single_of_admits hadmits (.inr (.inl ht))
  have htable := hadmits.fontTable ht q.build List.mem_cons_self
  have hq := hcontent q List.mem_cons_self _ (LabelNode.symbol?_of_isTable htable)
  rw [markup_single t ws q hvoid]
  cases relaxed with
  | true => exact .nestedTable rfl ht _ hq
  | false =>
    -- in the documented grammar the tag holds the table itself
    have hplain : q.build.isTag .table = true := by
      have harranged' := harranged.resolve_left Bool.false_ne_true
      simpa [LabelNode.arranged_of_wrapsTable ht, buildAll] using harranged'
    exact .wrappedTable ht _ (table_of_fontTable hplain hq)

theorem derives_cell (hadmits : Tag.tableCell.Admits (buildAll content))
    (hcontent : ∀ q ∈ content, q.IsDerived relaxed) (ws : List Write) :
    Derives relaxed (.division .cells) (tag .tableCell ws content).markup := by
  obtain ⟨hvoid, q, rfl⟩ := single_of_admits hadmits (.inr (.inr rfl))
  have hcell := hadmits.cell rfl q.build List.mem_cons_self
  have hq := hcontent q List.mem_cons_self
  rw [LabelNode.isCellContent, Bool.or_eq_true, Bool.or_eq_true] at hcell
  rw [markup_single _ ws q hvoid]
  rcases hcell with (htext | htable) | himage
  · exact .cell _ (.labelText (hq _ (LabelNode.symbol?_of_isText htext)))
  · exact .cell _ (.labelTable (hq _ (LabelNode.symbol?_of_isTable htable)))
  · obtain ⟨ws', content', rfl⟩ := exists_of_isTag himage
    rw [markup_tag]
    exact .imageCell _ _

/-- A tag has a derivation if its content has. -/
theorem isDerived_tag (hadmits : t.Admits (buildAll content))
    (htext : t.wrapsText = true → ∀ q ∈ content, q.build.isText = true)
    (harranged : relaxed = true ∨ LabelNode.arranged t (buildAll content) = true)
    (hcontent : ∀ q ∈ content, q.IsDerived relaxed) (ws : List Write) :
    (tag t ws content).IsDerived relaxed := by
  intro symbol hsymbol
  cases t with
  | lineBreak =>
    cases hsymbol
    rw [markup_tag]
    exact .lineBreak _
  | font | italic | bold | underline | overline | subscript | superscript | strikeThrough =>
    cases hsymbol
    exact derives_wrappedText rfl hadmits (htext rfl) hcontent ws
  | tableFont | tableItalic | tableBold | tableUnderline | tableOverline =>
    cases hsymbol
    exact derives_wrappedTable rfl hadmits harranged hcontent ws
  | table =>
    cases hsymbol
    obtain ⟨hmarkup, hderives⟩ := @derives_divisions .rows _ _ hadmits harranged hcontent ws
    exact .plainTable (hmarkup ▸ .table _ hderives)
  | tableRow =>
    cases hsymbol
    obtain ⟨hmarkup, hderives⟩ := @derives_divisions .cells _ _ hadmits harranged hcontent ws
    exact hmarkup ▸ .row _ hderives
  | tableCell =>
    cases hsymbol
    exact derives_cell hadmits hcontent ws
  | horizontalRule | verticalRule | image => cases hsymbol

end content

/-- A typed node whose tags hold texts where they should has a derivation: in the relaxed grammar,
and in the documented one if it is complete. -/
theorem derives_of_typed {relaxed : Bool} {n : LabelNode} (hn : n.Typed)
    (htexts : n.wrapsTexts = true) (hc : relaxed = true ∨ n.isComplete = true) :
    ∀ p : LabelPlan, p.build = n → p.IsDerived relaxed := by
  induction hn with
  | chars s =>
    intro p hp symbol hsymbol
    rw [hp] at hsymbol
    cases hsymbol
  | text hitems hall ih =>
    intro p hp symbol hsymbol
    obtain rfl : LabelSymbol.text = symbol := by
      rw [hp] at hsymbol
      exact Option.some.inj hsymbol
    cases p with
    | text ps =>
      cases hp
      rw [LabelNode.wrapsTexts, LabelNode.allWrapTexts_iff] at htexts
      rw [LabelNode.isComplete, LabelNode.allComplete_iff] at hc
      have hderives : ∀ q ∈ ps, q.IsDerived relaxed := by
        intro q hq
        have hmem : q.build ∈ buildAll ps := buildAll_eq ps ▸ List.mem_map_of_mem hq
        exact ih _ hmem (htexts _ hmem) (hc.imp_right fun h => h _ hmem) q rfl
      rw [buildAll_forall] at hitems
      refine Derives.text_iff.2 fun m hm => ?_
      rcases Markup.mem_joinFrom hm with ⟨s, rfl⟩ | hm
      · exact .string s
      · rw [parts, partsAll_eq] at hm
        obtain ⟨q, hq, hm⟩ := List.mem_flatMap.1 hm
        cases q with
        | chars s =>
          rw [List.mem_singleton.1 hm]
          exact .string _
        | text _ => cases hitems _ hq
        | tag t ws content =>
          have hitem : t.isTextItem = true := hitems _ hq
          have hone := hderives _ hq .textItem (by simp [build, LabelNode.symbol?, hitem])
          rw [markup_tag_eq_parts, parts] at hone
          rw [parts] at hm
          rwa [List.mem_singleton.1 hm]
    | _ => cases hp
  | tag hadmits hall ih =>
    intro p hp
    cases p with
    | tag t ws content =>
      cases hp
      rw [LabelNode.wrapsTexts_tag] at htexts
      rw [LabelNode.isComplete, Bool.and_eq_true, LabelNode.allComplete_iff] at hc
      refine isDerived_tag hadmits (fun h => buildAll_forall.1 (htexts.1 h)) (hc.imp_right (·.1))
        (fun q hq => ?_) ws
      have hmem : q.build ∈ buildAll content := buildAll_eq content ▸ List.mem_map_of_mem hq
      exact ih _ hmem (htexts.2 _ hmem) (hc.imp_right fun h => h.2 _ hmem) q rfl
    | _ => cases hp

end LabelPlan

end DotWriter
