import DotWriter.Proofs.Label.Derivation

/-!
# Labels in the documented grammar

What is derived in the documented grammar is complete: the shape of a node is read off the derivation
of its markup, by the same induction that finds derivations.

* `LabelPlan.divided_cases` : the rules in a derivation of rows or cells stand between them;
* `LabelPlan.isComplete_of_derives` : **only complete nodes have derivations** in the documented
  grammar;
* `IsLabelText` : the texts that labels of the grammar are written as;
* `constructed_isLabelText` : **what labels that can be made are written as**;
* `labels_not_documented` : labels that can be made and are in the relaxed grammar only.
-/

namespace DotWriter

namespace LabelPlan

/-! ### Divisions and rules -/

variable {l : Layer}

/-- The last piece of markup is that of the last plan. -/
theorem flatMap_concat {ps : List LabelPlan} (hps : ∀ p ∈ ps, ∃ m, p.markup = [m])
    {ms : List Markup} {m : Markup} (h : ps.flatMap markup = ms ++ [m]) :
    ∃ qs q, ps = qs ++ [q] ∧ qs.flatMap markup = ms ∧ q.markup = [m] := by
  rcases List.eq_nil_or_concat' ps with rfl | ⟨qs, q, rfl⟩
  · simp at h
  · obtain ⟨m', hm'⟩ := hps q (List.mem_append_right qs List.mem_cons_self)
    rw [List.flatMap_append, List.flatMap_singleton, hm'] at h
    obtain ⟨hms, hm⟩ := List.append_inj' h rfl
    exact ⟨qs, q, rfl, hms, hm'.trans hm⟩

theorem markup_inner {p : LabelPlan} (h : p.build.isTag l.inner = true) :
    ∃ attributes ns, p.markup = [.element l.inner.spelling attributes ns] :=
  markup_element h (by cases l <;> rfl)

section divided

variable {ps : List LabelPlan}
  (hps : ∀ p ∈ ps, p.build.isTag l.inner = true ∨ p.build.isTag l.rule = true)

include hps

theorem exists_markup : ∀ p ∈ ps, ∃ m, p.markup = [m] := by
  intro p hp
  rcases hps p hp with hinner | hrule
  · obtain ⟨attributes, ns, h⟩ := markup_inner hinner
    exact ⟨_, h⟩
  · obtain ⟨attributes, h⟩ := markup_rule hrule
    exact ⟨_, h⟩

/-- If the markup ends in that of a division, the last plan is a division. -/
theorem concat_of_division {ms ns : List Markup} (hms : ps.flatMap markup = ms ++ ns)
    (h : Derives false (.division l) ns) :
    ∃ qs q, ps = qs ++ [q] ∧ qs.flatMap markup = ms ∧ Derives false (.division l) q.markup ∧
      q.build.isTag l.rule = false := by
  obtain ⟨attributes, ns, rfl⟩ := h.division_cases
  obtain ⟨qs, q, rfl, hqs, hq⟩ := flatMap_concat (exists_markup hps) hms
  refine ⟨qs, q, rfl, hqs, hq ▸ h, Bool.eq_false_iff.2 fun hrule => ?_⟩
  obtain ⟨attributes', hrule⟩ := markup_rule hrule
  rw [hq] at hrule
  cases hrule

/-- If the markup ends in that of a rule, the last plan is a rule. -/
theorem concat_of_rule {ms : List Markup} {attributes : List (String × String)}
    (hms : ps.flatMap markup = ms ++ [.void l.rule.spelling attributes]) :
    ∃ qs q, ps = qs ++ [q] ∧ qs.flatMap markup = ms ∧ q.build.isTag l.rule = true ∧
      ¬ q.build.isTag l.inner = true := by
  obtain ⟨qs, q, rfl, hqs, hq⟩ := flatMap_concat (exists_markup hps) hms
  have hnot : ¬ q.build.isTag l.inner = true := by
    intro hinner
    obtain ⟨attributes', ns, hinner⟩ := markup_inner hinner
    rw [hq] at hinner
    cases hinner
  exact ⟨qs, q, rfl, hqs, (hps q (List.mem_append_right _ List.mem_cons_self)).resolve_left hnot,
    hnot⟩

/-- A derivation of rows and rules, or of cells and rules, has a derivation of each row or cell, and
the rules stand between them. -/
theorem divided_cases (h : Derives false (.divisions l) (ps.flatMap markup)) :
    LabelNode.separated l.rule (ps.map build) = true ∧
      ∀ p ∈ ps, p.build.isTag l.inner = true → Derives false (.division l) p.markup := by
  generalize hsymbol : LabelSymbol.divisions l = symbol at h
  generalize hms : ps.flatMap markup = ms at h
  induction h generalizing ps with
  | @first _ ms h =>
    cases hsymbol
    rw [← List.nil_append ms] at hms
    obtain ⟨qs, q, rfl, hqs, hq, hnot⟩ := concat_of_division hps hms h
    obtain rfl : qs = [] := by
      refine List.eq_nil_iff_forall_not_mem.2 fun p hp => ?_
      obtain ⟨m, hm⟩ := exists_markup hps p (List.mem_append_left _ hp)
      exact List.cons_ne_nil _ _ (hm.symm.trans (List.flatMap_eq_nil_iff.1 hqs p hp))
    exact ⟨by simp [LabelNode.separated, hnot], List.forall_mem_singleton.2 fun _ => hq⟩
  | next _ h ih _ =>
    cases hsymbol
    obtain ⟨qs, q, rfl, hqs, hq, hnot⟩ := concat_of_division hps hms h
    obtain ⟨hseparated, hall⟩ := ih (List.forall_mem_append.1 hps).1 rfl hqs
    refine ⟨?_, LabelNode.forall_mem_concat hall fun _ => hq⟩
    rw [List.map_append]
    exact LabelNode.separated_concat hseparated hnot
  | ruled _ attributes h ih _ =>
    cases hsymbol
    rw [List.append_cons] at hms
    obtain ⟨rs, q, rfl, hrs, hq, hnot⟩ := concat_of_division hps hms h
    obtain ⟨hrest, -⟩ := List.forall_mem_append.1 hps
    obtain ⟨qs, r, rfl, hqs, hrule, hnotInner⟩ := concat_of_rule hrest hrs
    obtain ⟨hseparated, hall⟩ := ih (List.forall_mem_append.1 hrest).1 rfl hqs
    refine ⟨?_, LabelNode.forall_mem_concat
      (LabelNode.forall_mem_concat hall fun hinner => absurd hinner hnotInner) fun _ => hq⟩
    rw [List.map_append, List.map_append, List.append_assoc]
    exact LabelNode.separated_concat_ruled hseparated hrule hnot
  | noDivisions h => cases h
  | looseRule h => cases h
  | _ => cases hsymbol

end divided

/-! ### Tables -/

/-- A table, possibly in tags, is no text. -/
theorem not_text_of_isTable {relaxed : Bool} {n : LabelNode} (hn : n.Typed)
    (htable : n.isTable = true) :
    ∀ p : LabelPlan, p.build = n → ¬ Derives relaxed .text p.markup := by
  induction hn with
  | chars s => cases htable
  | text hitems hall ih => cases htable
  | @tag t attributes nodes hadmits hall ih =>
    intro p hp htext
    cases p with
    | tag _ ws content =>
      cases hp
      have hitem := Derives.text_iff.1 htext
      rcases LabelNode.isTable_tag.1 htable with rfl | ht
      · rw [markup_tag, List.forall_mem_singleton] at hitem
        obtain ⟨t, ht, hspelling, -⟩ := Derives.textItem_element hitem
        exact spelling_ne_table (.inl ht) hspelling
      · obtain ⟨hvoid, q, rfl⟩ := single_of_admits hadmits (.inr (.inl ht))
        rw [markup_single t ws q hvoid, List.forall_mem_singleton] at hitem
        obtain ⟨-, -, -, hq⟩ := hitem.textItem_element
        exact ih q.build List.mem_cons_self (hadmits.fontTable ht _ List.mem_cons_self) q rfl hq
    | _ => cases hp

/-- A table, possibly in tags, shows as an element. -/
theorem markup_of_isTable {p : LabelPlan} (h : p.build.isTable = true) :
    ∃ t attributes ns, p.build.isTag t = true ∧ (t = .table ∨ t.wrapsTable = true) ∧
      p.markup = [.element t.spelling attributes ns] := by
  cases p with
  | tag t ws content =>
    have ht := LabelNode.isTable_tag.1 h
    have hvoid : t.isVoid = false := by
      cases t <;> first | rfl | cases h
    have htag : (tag t ws content).build.isTag t = true := by simp [build, LabelNode.isTag]
    obtain ⟨attributes, ns, hmarkup⟩ := markup_element htag hvoid
    exact ⟨t, attributes, ns, htag, ht, hmarkup⟩
  | _ => cases h

/-- In the documented grammar, a table that is in no tags is told by its markup. -/
theorem isTag_of_table {p : LabelPlan} (hp : p.build.isTable = true)
    (h : Derives false .table p.markup) : p.build.isTag .table = true := by
  obtain ⟨attributes, ns, hmarkup, -⟩ := h.table_cases
  obtain ⟨t, attributes', ns', htag, rfl | ht, hmarkup'⟩ := markup_of_isTable hp
  · exact htag
  · exact absurd (Markup.element_inj (hmarkup.symm.trans hmarkup')).1 (spelling_ne_table (.inr ht))

end LabelPlan

/-! ### Complete nodes -/

namespace LabelNode

/-- A text whose tags hold texts is complete. -/
theorem isComplete_of_text {n : LabelNode} (hn : n.Typed) (htexts : n.wrapsTexts = true)
    (h : n.isText = true ∨ n.isTextItem = true) : n.isComplete = true := by
  induction hn with
  | chars s => rfl
  | text hitems hall ih =>
    rw [wrapsTexts, allWrapTexts_iff] at htexts
    rw [isComplete, allComplete_iff]
    exact fun n hn => ih n hn (htexts n hn) (.inr (hitems n hn))
  | @tag t attributes content hadmits hall ih =>
    have hitem : t.isTextItem = true := h.resolve_left Bool.false_ne_true
    rw [wrapsTexts_tag] at htexts
    rw [isComplete, Bool.and_eq_true, allComplete_iff]
    have harranged : arranged t content = true := by
      cases t <;> first | rfl | cases hitem
    refine ⟨harranged, fun n hn => ?_⟩
    replace hitem : t = .lineBreak ∨ t.wrapsText = true := by simpa [Tag.isTextItem] using hitem
    rcases hitem with rfl | ht
    · rw [hadmits.void rfl] at hn
      cases hn
    · exact ih n hn (htexts.2 n hn) (.inl (htexts.1 ht n hn))

/-- A tag that stands alone is complete. -/
theorem isComplete_of_void {n : LabelNode} {t : Tag} (hn : n.Typed) (h : n.isTag t = true)
    (ht : t.isVoid = true) : n.isComplete = true := by
  cases hn with
  | @tag u attributes content hadmits _ =>
    obtain rfl : u = t := by simpa [isTag] using h
    rw [hadmits.void ht]
    cases u <;> first | rfl | cases ht
  | _ => cases h

end LabelNode

namespace LabelPlan

/-- If the symbol that stands for the node derives its markup as documented, the node is complete. -/
def ShowsComplete (p : LabelPlan) : Prop :=
  ∀ symbol, p.build.symbol? = some symbol → Derives false symbol p.markup →
    p.build.isComplete = true

section content

variable {l : Layer} {t : Tag} {content : List LabelPlan}

/-- What is divided is complete if its divisions are. -/
theorem isComplete_divisions (hadmits : l.outer.Admits (buildAll content))
    (hall : ∀ q ∈ content, q.build.Typed) (hcontent : ∀ q ∈ content, q.ShowsComplete)
    {ws : List Write} {attributes : List (String × String)} {ns : List Markup}
    (hmarkup : (tag l.outer ws content).markup = [.element l.outer.spelling attributes ns])
    (h : Derives false (.divisions l) ns) : (tag l.outer ws content).build.isComplete = true := by
  have hdivided := hadmits.divided l rfl
  rw [buildAll_forall] at hdivided
  rw [markup_outer l ws hdivided] at hmarkup
  obtain ⟨-, rfl⟩ := Markup.element_inj hmarkup
  obtain ⟨hseparated, hinner⟩ := divided_cases hdivided h
  rw [build, LabelNode.isComplete, Bool.and_eq_true, LabelNode.allComplete_iff,
    LabelNode.arranged_outer, buildAll_forall, buildAll_eq]
  refine ⟨hseparated, fun q hq => ?_⟩
  rcases hdivided q hq with hdivision | hrule
  · exact hcontent q hq _ (LabelNode.symbol?_of_isInner hdivision) (hinner q hq hdivision)
  · exact LabelNode.isComplete_of_void (hall q hq) hrule (by cases l <;> rfl)

theorem isComplete_wrappedTable (ht : t.wrapsTable = true) (hadmits : t.Admits (buildAll content))
    (hcontent : ∀ q ∈ content, q.ShowsComplete) {ws : List Write}
    (h : Derives false .fontTable (tag t ws content).markup) :
    (tag t ws content).build.isComplete = true := by
  obtain ⟨hvoid, q, rfl⟩ := single_of_admits hadmits (.inr (.inl ht))
  have htable := hadmits.fontTable ht q.build List.mem_cons_self
  rw [markup_single t ws q hvoid] at h
  -- the derivation is one of a table in one tag
  have hq : Derives false .table q.markup := by
    rcases h.fontTable_cases with h | ⟨u, attributes, ns, -, hmarkup, hns⟩
    · obtain ⟨attributes, ns, hmarkup, -⟩ := h.table_cases
      exact absurd (Markup.element_inj hmarkup).1.symm (spelling_ne_table (.inr ht))
    · obtain ⟨-, rfl⟩ := Markup.element_inj hmarkup
      exact hns
  have hcomplete := hcontent q List.mem_cons_self _ (LabelNode.symbol?_of_isTable htable)
    (.plainTable hq)
  rw [build, LabelNode.isComplete, Bool.and_eq_true, LabelNode.allComplete_iff, buildAll_forall]
  refine ⟨?_, List.forall_mem_singleton.2 hcomplete⟩
  simp [LabelNode.arranged_of_wrapsTable ht, buildAll, isTag_of_table htable hq]

theorem isComplete_cell (hadmits : Tag.tableCell.Admits (buildAll content))
    (hall : ∀ q ∈ content, q.build.Typed)
    (htexts : ∀ q ∈ content, q.build.wrapsTexts = true) (hcontent : ∀ q ∈ content, q.ShowsComplete)
    {ws : List Write} (h : Derives false (.division .cells) (tag .tableCell ws content).markup) :
    (tag .tableCell ws content).build.isComplete = true := by
  obtain ⟨hvoid, q, rfl⟩ := single_of_admits hadmits (.inr (.inr rfl))
  have hcell := hadmits.cell rfl q.build List.mem_cons_self
  have htyped := hall q List.mem_cons_self
  rw [LabelNode.isCellContent, Bool.or_eq_true, Bool.or_eq_true] at hcell
  rw [markup_single _ ws q hvoid] at h
  rw [build, LabelNode.isComplete, Bool.and_eq_true, LabelNode.allComplete_iff, buildAll_forall,
    List.forall_mem_singleton]
  refine ⟨rfl, ?_⟩
  rcases hcell with (htext | htable) | himage
  · exact LabelNode.isComplete_of_text htyped (htexts q List.mem_cons_self) (.inl htext)
  · obtain ⟨attributes, ns, hmarkup, hns⟩ := h.cell_cases
    obtain ⟨-, rfl⟩ := Markup.element_inj hmarkup
    have hlabel : Derives false .label q.markup := by
      refine hns.resolve_right ?_
      rintro ⟨image, himage⟩
      obtain ⟨t, attributes, ns, -, -, hmarkup⟩ := markup_of_isTable htable
      rw [hmarkup] at himage
      cases himage
    have hfont := hlabel.label_cases.resolve_left (not_text_of_isTable htyped htable q rfl)
    exact hcontent q List.mem_cons_self _ (LabelNode.symbol?_of_isTable htable) hfont
  · exact LabelNode.isComplete_of_void htyped himage rfl

/-- A tag is complete if it is derived and its content is complete as far as it is derived. -/
theorem showsComplete_tag {ws : List Write} (hn : (tag t ws content).build.Typed)
    (htexts : (tag t ws content).build.wrapsTexts = true)
    (hcontent : ∀ q ∈ content, q.ShowsComplete) : (tag t ws content).ShowsComplete := by
  obtain ⟨hadmits, hall⟩ : t.Admits (buildAll content) ∧ ∀ n ∈ buildAll content, n.Typed := by
    cases hn with
    | tag hadmits hall => exact ⟨hadmits, hall⟩
  have htextsOf := (LabelNode.wrapsTexts_tag.1 htexts).2
  rw [buildAll_forall] at hall htextsOf
  intro symbol hsymbol h
  cases t with
  | lineBreak | font | italic | bold | underline | overline | subscript | superscript
  | strikeThrough => exact LabelNode.isComplete_of_text hn htexts (.inr rfl)
  | tableFont | tableItalic | tableBold | tableUnderline | tableOverline =>
    cases hsymbol
    exact isComplete_wrappedTable rfl hadmits hcontent h
  | table =>
    cases hsymbol
    obtain ⟨attributes, ns, hmarkup, hns⟩ := (table_of_fontTable (by rfl) h).table_cases
    exact @isComplete_divisions .rows _ hadmits hall hcontent _ _ _ hmarkup hns
  | tableRow =>
    cases hsymbol
    obtain ⟨attributes, ns, hmarkup, hns⟩ := h.row_cases
    exact @isComplete_divisions .cells _ hadmits hall hcontent _ _ _ hmarkup hns
  | tableCell =>
    cases hsymbol
    exact isComplete_cell hadmits hall htextsOf hcontent h
  | horizontalRule | verticalRule | image => cases hsymbol

end content

/-- A typed node whose tags hold texts where they should is complete if it has a derivation in the
documented grammar. -/
theorem isComplete_of_derives {n : LabelNode} (hn : n.Typed) (htexts : n.wrapsTexts = true) :
    ∀ p : LabelPlan, p.build = n → p.ShowsComplete := by
  induction hn with
  | chars s =>
    intro p hp _ _ _
    rw [hp]
    rfl
  | text hitems hall ih =>
    intro p hp _ _ _
    rw [hp]
    exact LabelNode.isComplete_of_text (.text hitems hall) htexts (.inl rfl)
  | tag hadmits hall ih =>
    intro p hp
    cases p with
    | tag t ws content =>
      cases hp
      refine showsComplete_tag (.tag hadmits hall) htexts fun q hq => ?_
      have hmem : q.build ∈ buildAll content := buildAll_eq content ▸ List.mem_map_of_mem hq
      exact ih _ hmem ((LabelNode.wrapsTexts_tag.1 htexts).2 _ hmem) q rfl
    | _ => cases hp

/-! ### Labels -/

section label

variable {p : LabelPlan} (hp : p.build.Typed) (htexts : p.build.wrapsTexts = true)
  (hcontent : p.build.isLabelContent = true)

include hp htexts hcontent

theorem derives_label {relaxed : Bool} (h : relaxed = true ∨ p.build.isComplete = true) :
    Derives relaxed .label p.markup := by
  rcases Bool.or_eq_true_iff.1 hcontent with htext | htable
  · exact .labelText (derives_of_typed hp htexts h p rfl _ (LabelNode.symbol?_of_isText htext))
  · exact .labelTable (derives_of_typed hp htexts h p rfl _ (LabelNode.symbol?_of_isTable htable))

theorem isComplete_of_label (h : Derives false .label p.markup) : p.build.isComplete = true := by
  rcases Bool.or_eq_true_iff.1 hcontent with htext | htable
  · exact LabelNode.isComplete_of_text hp htexts (.inl htext)
  · have hfont := h.label_cases.resolve_left (not_text_of_isTable hp htable p rfl)
    exact isComplete_of_derives hp htexts p rfl _ (LabelNode.symbol?_of_isTable htable) hfont

end label

end LabelPlan

/-- The text is that of a label of the grammar: markup that has a derivation, in angle brackets. -/
def IsLabelText (relaxed : Bool) (s : String) : Prop :=
  ∃ content ms, s = "<" ++ content ++ ">" ∧ readMarkup content = some ms ∧
    Derives relaxed .label ms

theorem isLabelText_build {relaxed : Bool} {p : LabelPlan} :
    IsLabelText relaxed ("<" ++ p.written ++ ">") ↔ Derives relaxed .label p.markup := by
  constructor
  · rintro ⟨content, ms, hcontent, hread, h⟩
    have hwritten : p.written = content := by
      have := congrArg String.toList hcontent
      simp only [String.toList_append] at this
      exact String.toList_inj.1 (List.append_cancel_left (List.append_cancel_right this))
    rw [← hwritten, p.read_build] at hread
    cases hread
    exact h
  · exact fun h => ⟨p.written, p.markup, rfl, p.read_build, h⟩

/-- A label of typed nodes is written as a text of the relaxed grammar, and of the documented one
exactly if it is complete. -/
theorem LabelNode.Typed.isLabelText {n : LabelNode} (hn : n.Typed) (hplanned : n.Planned)
    (htexts : n.wrapsTexts = true) (hcontent : n.isLabelContent = true) :
    ∃ text, Value.renderLabel n = .ok text ∧ IsLabelText true text ∧
      (IsLabelText false text ↔ n.isComplete = true) := by
  obtain ⟨p, rfl⟩ := hplanned
  refine ⟨"<" ++ p.written ++ ">", p.renderLabel_build, ?_⟩
  rw [isLabelText_build, isLabelText_build]
  exact ⟨p.derives_label hn htexts hcontent (.inl rfl),
    p.isComplete_of_label hn htexts hcontent, fun h => p.derives_label hn htexts hcontent (.inr h)⟩

/-- **What labels that can be made are written as.**  Every label of nodes that were made by
constructors and calls, where the tags that change the font of a text were given texts, is written
as a text of the relaxed grammar: all is as documented, but rows and cells may be missing, rules
stand anywhere among them, and font tags around a table may be nested.  The text is in the
documented grammar exactly if the label is complete. -/
theorem constructed_isLabelText {d : Datum} {v : Value}
    (hd : ∀ n, d = .node n → n.Constructed ∧ n.wrapsTexts = true)
    (h : Value.ofLabel [d] = .ok v) :
    ∃ content text, v = .label content ∧ v.render = .ok text ∧ IsLabelText true text ∧
      (IsLabelText false text ↔ content.isComplete = true) := by
  obtain ⟨content, hcontent, rfl⟩ := Outcome.map_eq_ok.1 h
  obtain ⟨hallowed, harg⟩ := labelContent_eq_ok hcontent
  have hlabel : content.Typed ∧ content.Planned ∧ content.wrapsTexts = true := by
    rcases harg with hnode | ⟨s, rfl⟩
    · obtain ⟨hmade, htexts⟩ := hd content hnode
      exact ⟨hmade.typed, hmade.planned, htexts⟩
    · exact ⟨.text (by simp [LabelNode.isTextItem]) (by simp [LabelNode.Typed.chars]),
        ⟨.text [.chars s], rfl⟩, rfl⟩
  obtain ⟨htyped, hplanned, htexts⟩ := hlabel
  obtain ⟨text, htext, hlaws⟩ := htyped.isLabelText hplanned htexts hallowed
  exact ⟨content, text, rfl, htext, hlaws⟩

namespace LabelNode

/-- A row of one empty cell. -/
def sampleRow : LabelNode := bare .tableRow [bare .tableCell [noText]]

/-- Two rows with a rule between them. -/
def ruledTable : LabelNode := bare .table [sampleRow, bare .horizontalRule [], sampleRow]

theorem constructed_sampleRow : sampleRow.Constructed := by
  have hcell : (bare .tableCell [noText]).Constructed :=
    @Constructed.of "TableCell" [] _ (by simp) rfl rfl
  refine @Constructed.of "TableRow" [.node (bare .tableCell [noText])] _ ?_ rfl rfl
  simpa using hcell

theorem constructed_ruledTable : ruledTable.Constructed := by
  have hrow : (bare .table [sampleRow]).Constructed := by
    refine @Constructed.of "Table" [.node sampleRow] _ ?_ rfl rfl
    simpa using constructed_sampleRow
  have hrule : (bare .table [sampleRow, bare .horizontalRule []]).Constructed :=
    @Constructed.call _ _ .addRule [] hrow (by simp [LabelCall.arguments]) rfl
  refine @Constructed.call _ _ (.add (.node sampleRow)) [] hrule ?_ rfl
  simpa [LabelCall.arguments] using constructed_sampleRow

end LabelNode

theorem ruledTable_isLabelText : LabelNode.ruledTable.Constructed ∧
    Value.ofLabel [.node LabelNode.ruledTable] = .ok (.label LabelNode.ruledTable) ∧
      IsLabelText false "<<TABLE><TR><TD></TD></TR><HR/><TR><TD></TD></TR></TABLE>>" := by
  have hmade := LabelNode.constructed_ruledTable
  have hlabel : Value.ofLabel [.node .ruledTable] = .ok (.label .ruledTable) := rfl
  refine ⟨hmade, hlabel, ?_⟩
  obtain ⟨content, text, hcontent, htext, -, hiff⟩ :=
    constructed_isLabelText (by rintro n ⟨⟩; exact ⟨hmade, rfl⟩) hlabel
  cases hcontent
  cases htext
  exact hiff.2 rfl

namespace LabelNode

/-- The node can be made into a label, with texts in the tags that change the font of a text, and
the label is not in the documented grammar. -/
def IsUndocumented (n : LabelNode) : Prop :=
  n.Constructed ∧ n.wrapsTexts = true ∧ Value.ofLabel [.node n] = .ok (.label n) ∧
    ∃ text, (Value.label n).render = .ok text ∧ ¬ IsLabelText false text

theorem isUndocumented {n : LabelNode} (hmade : n.Constructed) (htexts : n.wrapsTexts = true)
    (hcontent : n.isLabelContent = true) (hcomplete : n.isComplete = false) :
    n.IsUndocumented := by
  obtain ⟨text, htext, -, hiff⟩ := hmade.typed.isLabelText hmade.planned htexts hcontent
  refine ⟨hmade, htexts, ?_, text, htext, ?_⟩
  · simp [Value.ofLabel, labelContent, nodeOf, hcontent]
  · rw [hiff, hcomplete]
    exact Bool.false_ne_true

/-- A table that begins with a rule. -/
def leadingRule : LabelNode := bare .table [bare .horizontalRule [], sampleRow]

/-- A row that ends with a rule. -/
def trailingRule : LabelNode :=
  bare .tableRow [bare .tableCell [noText], bare .verticalRule []]

/-- A table in two tags that change its font. -/
def nestedFont : LabelNode := bare .tableItalic [bare .tableBold [ruledTable]]

theorem constructed_emptyTable : (bare .table []).Constructed :=
  @Constructed.of "Table" [] _ (by simp) rfl rfl

theorem constructed_emptyRow : (bare .tableRow []).Constructed :=
  @Constructed.of "TableRow" [] _ (by simp) rfl rfl

/-- A table of one row. -/
def ofRow (row : LabelNode) : LabelNode := bare .table [row]

theorem constructed_ofRow {row : LabelNode} (hrow : row.Constructed)
    (h : row.isTag .tableRow = true) : (ofRow row).Constructed := by
  have hitem : (bare .table []).checkedItem (.node row) = .ok row := by
    simp [bare, checkedItem, nodeOf, h]
  refine @Constructed.call _ _ (.add (.node row)) [] constructed_emptyTable ?_
    (Outcome.bind_eq_ok.2 ⟨row, hitem, rfl⟩)
  simpa [LabelCall.arguments] using hrow

theorem constructed_leadingRule : leadingRule.Constructed := by
  have hrule : (bare .table [bare .horizontalRule []]).Constructed :=
    @Constructed.call _ _ .addRule [] constructed_emptyTable (by simp [LabelCall.arguments]) rfl
  refine @Constructed.call _ _ (.add (.node sampleRow)) [] hrule ?_ rfl
  simpa [LabelCall.arguments] using constructed_sampleRow

theorem constructed_trailingRule : trailingRule.Constructed :=
  @Constructed.call _ _ .addRule [] constructed_sampleRow (by simp [LabelCall.arguments]) rfl

theorem constructed_nestedFont : nestedFont.Constructed := by
  have hbold : (bare .tableBold [ruledTable]).Constructed := by
    refine @Constructed.of "TableBold" [.node ruledTable] _ ?_ rfl rfl
    simpa using constructed_ruledTable
  refine @Constructed.of "TableItalic" [.node (bare .tableBold [ruledTable])] _ ?_ rfl rfl
  simpa using hbold

end LabelNode

open LabelNode in
/-- A table without rows, a row without cells, rules that do not stand between two rows or two
cells, and nested font tags around a table can be made into labels that are not in the documented
grammar. -/
theorem labels_not_documented :
    (bare .table []).IsUndocumented ∧ (ofRow (bare .tableRow [])).IsUndocumented ∧
      leadingRule.IsUndocumented ∧ (ofRow trailingRule).IsUndocumented ∧
        nestedFont.IsUndocumented :=
  ⟨isUndocumented constructed_emptyTable rfl rfl rfl,
    isUndocumented (constructed_ofRow constructed_emptyRow rfl) rfl rfl rfl,
    isUndocumented constructed_leadingRule rfl rfl rfl,
    isUndocumented (constructed_ofRow constructed_trailingRule rfl) rfl rfl rfl,
    isUndocumented constructed_nestedFont rfl rfl rfl⟩

end DotWriter
