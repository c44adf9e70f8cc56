import DotWriter.Proofs.Label.Construction

/-!
# The grammar of labels

The content of a label is a text or a table, possibly inside tags that change its font; a table has
rows and rules, a row has cells and rules, and a cell holds such a content again or an image.

* `Derives` : the grammar, as it is documented or relaxed;
* `Derives.text_iff`, `Derives.prepend` : texts are sequences of items, and divisions may be added
  in front;
* `LabelNode.isComplete` : rows, cells and rules stand in a node as the documented grammar has them,
  and font tags around a table are not nested;
* `LabelNode.wrapsTexts` : the tags that change the font of a text hold texts.
-/

namespace DotWriter

/-- What is derived in the grammar of labels. -/
inductive LabelSymbol
  | label | text | textItem | fontTable | table
  /-- The rows of a table or the cells of a row, with rules between them. -/
  | divisions (l : Layer)
  /-- A row or a cell. -/
  | division (l : Layer)

/-- The grammar of labels.  As it is documented, a text may be empty, but there is at least one row
and one cell, a rule stands between two of them, and one tag at most changes the font of a table.  If
it is `relaxed`, rows and cells may be missing, rules may stand anywhere among them, and font tags
around a table may be nested. -/
inductive Derives (relaxed : Bool) : LabelSymbol → List Markup → Prop
  | labelText {ms : List Markup} (h : Derives relaxed .text ms) : Derives relaxed .label ms
  | labelTable {ms : List Markup} (h : Derives relaxed .fontTable ms) : Derives relaxed .label ms
  | noText : Derives relaxed .text []
  | nextItem {ms ns : List Markup} (h : Derives relaxed .text ms)
    (hitem : Derives relaxed .textItem ns) : Derives relaxed .text (ms ++ ns)
  | string (s : String) : Derives relaxed .textItem [.chars s]
  | lineBreak (attributes : List (String × String)) :
    Derives relaxed .textItem [.void Tag.lineBreak.spelling attributes]
  | wrappedText {t : Tag} {ms : List Markup} (ht : t.wrapsText = true)
    (attributes : List (String × String)) (h : Derives relaxed .text ms) :
    Derives relaxed .textItem [.element t.spelling attributes ms]
  | plainTable {ms : List Markup} (h : Derives relaxed .table ms) : Derives relaxed .fontTable ms
  | wrappedTable {t : Tag} {ms : List Markup} (ht : t.wrapsTable = true)
    (attributes : List (String × String)) (h : Derives relaxed .table ms) :
    Derives relaxed .fontTable [.element t.spelling attributes ms]
  | table {ms : List Markup} (attributes : List (String × String))
    (h : Derives relaxed (.divisions .rows) ms) :
    Derives relaxed .table [.element Tag.table.spelling attributes ms]
  | first {l : Layer} {ms : List Markup} (h : Derives relaxed (.division l) ms) :
    Derives relaxed (.divisions l) ms
  | next {l : Layer} {ms ns : List Markup} (h : Derives relaxed (.divisions l) ms)
    (hnext : Derives relaxed (.division l) ns) : Derives relaxed (.divisions l) (ms ++ ns)
  | ruled {l : Layer} {ms ns : List Markup} (h : Derives relaxed (.divisions l) ms)
    (attributes : List (String × String)) (hnext : Derives relaxed (.division l) ns) :
    Derives relaxed (.divisions l) (ms ++ .void l.rule.spelling attributes :: ns)
  | row {ms : List Markup} (attributes : List (String × String))
    (h : Derives relaxed (.divisions .cells) ms) :
    Derives relaxed (.division .rows) [.element Tag.tableRow.spelling attributes ms]
  | cell {ms : List Markup} (attributes : List (String × String)) (h : Derives relaxed .label ms) :
    Derives relaxed (.division .cells) [.element Tag.tableCell.spelling attributes ms]
  | imageCell (attributes image : List (String × String)) :
    Derives relaxed (.division .cells)
      [.element Tag.tableCell.spelling attributes [.void Tag.image.spelling image]]
  | noDivisions (h : relaxed = true) (l : Layer) : Derives relaxed (.divisions l) []
  | looseRule (h : relaxed = true) {l : Layer} {ms : List Markup}
    (hms : Derives relaxed (.divisions l) ms) (attributes : List (String × String)) :
    Derives relaxed (.divisions l) (ms ++ [.void l.rule.spelling attributes])
  | nestedTable (h : relaxed = true) {t : Tag} {ms : List Markup} (ht : t.wrapsTable = true)
    (attributes : List (String × String)) (hms : Derives relaxed .fontTable ms) :
    Derives relaxed .fontTable [.element t.spelling attributes ms]

namespace Derives

variable {relaxed : Bool} {l : Layer} {ms ns : List Markup}

/-! ### What derivations begin with -/

theorem textItem_cases (h : Derives relaxed .textItem ms) :
    (∃ s, ms = [.chars s]) ∨ (∃ attributes, ms = [.void Tag.lineBreak.spelling attributes]) ∨
      ∃ (t : Tag) (attributes : List (String × String)) (ns : List Markup), t.wrapsText = true ∧
        ms = [.element t.spelling attributes ns] ∧ Derives relaxed .text ns := by
  cases h with
  | string s => exact .inl ⟨s, rfl⟩
  | lineBreak attributes => exact .inr (.inl ⟨attributes, rfl⟩)
  | wrappedText ht attributes h => exact .inr (.inr ⟨_, attributes, _, ht, rfl, h⟩)

theorem textItem_element {name : String} {attributes : List (String × String)}
    (h : Derives relaxed .textItem [.element name attributes ns]) :
    ∃ t : Tag, t.wrapsText = true ∧ name = t.spelling ∧ Derives relaxed .text ns := by
  rcases h.textItem_cases with ⟨s, hs⟩ | ⟨attributes, hs⟩ | ⟨t, attributes, ns, ht, hs, hns⟩
  · cases hs
  · cases hs
  · cases hs
    exact ⟨t, ht, rfl, hns⟩

theorem table_cases (h : Derives relaxed .table ms) :
    ∃ (attributes : List (String × String)) (ns : List Markup),
      ms = [.element Tag.table.spelling attributes ns] ∧ Derives relaxed (.divisions .rows) ns := by
  cases h with
  | table attributes h => exact ⟨attributes, _, rfl, h⟩

/-- In the documented grammar, one tag at most changes the font of a table. -/
theorem fontTable_cases (h : Derives false .fontTable ms) :
    Derives false .table ms ∨ ∃ (t : Tag) (attributes : List (String × String)) (ns : List Markup),
      t.wrapsTable = true ∧ ms = [.element t.spelling attributes ns] ∧ Derives false .table ns := by
  cases h with
  | plainTable h => exact .inl h
  | wrappedTable ht attributes h => exact .inr ⟨_, attributes, _, ht, rfl, h⟩
  | nestedTable h => cases h

theorem label_cases (h : Derives relaxed .label ms) :
    Derives relaxed .text ms ∨ Derives relaxed .fontTable ms := by
  cases h with
  | labelText h => exact .inl h
  | labelTable h => exact .inr h

theorem row_cases (h : Derives relaxed (.division .rows) ms) :
    ∃ (attributes : List (String × String)) (ns : List Markup),
      ms = [.element Tag.tableRow.spelling attributes ns] ∧
        Derives relaxed (.divisions .cells) ns := by
  cases h with
  | row attributes h => exact ⟨attributes, _, rfl, h⟩

theorem cell_cases (h : Derives relaxed (.division .cells) ms) :
    ∃ (attributes : List (String × String)) (ns : List Markup),
      ms = [.element Tag.tableCell.spelling attributes ns] ∧
        (Derives relaxed .label ns ∨ ∃ image, ns = [.void Tag.image.spelling image]) := by
  cases h with
  | cell attributes h => exact ⟨attributes, _, rfl, .inl h⟩
  | imageCell attributes image => exact ⟨attributes, _, rfl, .inr ⟨image, rfl⟩⟩

theorem division_cases (h : Derives relaxed (.division l) ms) :
    ∃ (attributes : List (String × String)) (ns : List Markup),
      ms = [.element l.inner.spelling attributes ns] := by
  cases l with
  | rows =>
    obtain ⟨attributes, ns, rfl, -⟩ := h.row_cases
    exact ⟨attributes, ns, rfl⟩
  | cells =>
    obtain ⟨attributes, ns, rfl, -⟩ := h.cell_cases
    exact ⟨attributes, ns, rfl⟩

/-! ### Texts -/

/-- A text is a sequence of text items. -/
theorem text_iff : Derives relaxed .text ms ↔ ∀ m ∈ ms, Derives relaxed .textItem [m] := by
  constructor
  · intro h
    generalize hsymbol : LabelSymbol.text = symbol at h
    induction h with
    | noText => exact fun m hm => absurd hm List.not_mem_nil
    | @nextItem ms ns _ hitem ih _ =>
      obtain ⟨m, rfl⟩ : ∃ m, ns = [m] := by
        rcases hitem.textItem_cases with ⟨s, rfl⟩ | ⟨_, rfl⟩ | ⟨_, _, _, -, rfl, -⟩ <;>
          exact ⟨_, rfl⟩
      exact List.forall_mem_append.2 ⟨ih rfl, List.forall_mem_singleton.2 hitem⟩
    | _ => cases hsymbol
  · intro h
    induction ms using List.reverseRecOn with
    | nil => exact .noText
    | append_singleton ms m ih =>
      obtain ⟨hms, hm⟩ := List.forall_mem_append.1 h
      exact .nextItem (ih hms) (hm m List.mem_cons_self)

/-! ### Divisions -/

/-- One more division may come first. -/
theorem prepend (h : Derives relaxed (.division l) ns) (hms : Derives relaxed (.divisions l) ms) :
    Derives relaxed (.divisions l) (ns ++ ms) := by
  generalize hsymbol : LabelSymbol.divisions l = symbol at hms
  induction hms with
  | first hfirst =>
    cases hsymbol
    exact .next (.first h) hfirst
  | next _ hnext ih _ =>
    cases hsymbol
    rw [← List.append_assoc]
    exact .next (ih rfl) hnext
  | ruled _ attributes hnext ih _ =>
    cases hsymbol
    rw [← List.append_assoc]
    exact .ruled (ih rfl) attributes hnext
  | noDivisions =>
    cases hsymbol
    rw [List.append_nil]
    exact .first h
  | looseRule hrelaxed _ attributes ih =>
    cases hsymbol
    rw [← List.append_assoc]
    exact .looseRule hrelaxed (ih rfl) attributes
  | _ => cases hsymbol

/-- One more division may come first, with a rule behind it. -/
theorem prepend_ruled (h : Derives false (.division l) ns) (attributes : List (String × String))
    (hms : Derives false (.divisions l) ms) :
    Derives false (.divisions l) (ns ++ .void l.rule.spelling attributes :: ms) := by
  generalize hsymbol : LabelSymbol.divisions l = symbol at hms
  induction hms with
  | first hfirst =>
    cases hsymbol
    exact .ruled (.first h) attributes hfirst
  | next _ hnext ih _ =>
    cases hsymbol
    have := Derives.next (ih rfl) hnext
    rwa [List.append_assoc, List.cons_append] at this
  | ruled _ attributes' hnext ih _ =>
    cases hsymbol
    have := Derives.ruled (ih rfl) attributes' hnext
    rwa [List.append_assoc, List.cons_append] at this
  | noDivisions h => cases h
  | looseRule h => cases h
  | _ => cases hsymbol

end Derives

/-! ### Nodes -/

namespace LabelNode

/-- Whether there is a node that is no rule, and every rule stands between two of them. -/
def separated (rule : Tag) : List LabelNode → Bool
  | [] => false
  | [n] => !n.isTag rule
  | n :: m :: rest =>
    !n.isTag rule && if m.isTag rule then separated rule rest else separated rule (m :: rest)

/-- Whether the content of a tag is arranged as the documented grammar has it. -/
def arranged (t : Tag) (content : List LabelNode) : Bool :=
  match t with
  | .table => separated .horizontalRule content
  | .tableRow => separated .verticalRule content
  | t => !t.wrapsTable || content.all (isTag .table)

mutual

/-- Whether rows, cells and rules stand as the documented grammar has them, and no tag that changes
the font of a table holds another one. -/
def isComplete : LabelNode → Bool
  | text items => allComplete items
  | tag t _ content => arranged t content && allComplete content
  | _ => true

/-- Whether all nodes are complete. -/
def allComplete : List LabelNode → Bool
  | [] => true
  | n :: ns => n.isComplete && allComplete ns

end

mutual

/-- Whether the tags that change the font of a text hold texts. -/
def wrapsTexts : LabelNode → Bool
  | text items => allWrapTexts items
  | tag t _ content => (!t.wrapsText || content.all isText) && allWrapTexts content
  | _ => true

/-- Whether they do so in all nodes. -/
def allWrapTexts : List LabelNode → Bool
  | [] => true
  | n :: ns => n.wrapsTexts && allWrapTexts ns

end

theorem isTable_tag {t : Tag} {attributes : Table} {content : List LabelNode} :
    (tag t attributes content).isTable = true ↔ t = .table ∨ t.wrapsTable = true := by
  simp [isTable, Tag.isTable]

theorem allComplete_iff {ns : List LabelNode} :
    allComplete ns = true ↔ ∀ n ∈ ns, n.isComplete = true := by
  induction ns with
  | nil => simp [allComplete]
  | cons n ns ih => simp [allComplete, ih]

theorem allWrapTexts_iff {ns : List LabelNode} :
    allWrapTexts ns = true ↔ ∀ n ∈ ns, n.wrapsTexts = true := by
  induction ns with
  | nil => simp [allWrapTexts]
  | cons n ns ih => simp [allWrapTexts, ih]

/-- What is separated stays so if more nodes are added that may follow a node that is no rule. -/
theorem separated_append {rule : Tag} {ds : List LabelNode}
    (hds : ∀ n, separated rule [n] = true → separated rule (n :: ds) = true) :
    {ns : List LabelNode} → separated rule ns = true → separated rule (ns ++ ds) = true
  | [], h => by cases h
  | [n], h => hds n h
  | n :: m :: rest, h => by
    rw [separated, Bool.and_eq_true] at h
    rw [List.cons_append, List.cons_append, separated, Bool.and_eq_true]
    refine ⟨h.1, ?_⟩
    split_ifs at h ⊢ with hm
    · exact separated_append hds h.2
    · exact separated_append hds h.2

theorem separated_concat {rule : Tag} {ns : List LabelNode} {n : LabelNode}
    (h : separated rule ns = true) (hn : n.isTag rule = false) :
    separated rule (ns ++ [n]) = true := by
  refine separated_append (fun m hm => ?_) h
  simpa [separated, hn] using hm

theorem separated_concat_ruled {rule : Tag} {ns : List LabelNode} {r n : LabelNode}
    (h : separated rule ns = true) (hr : r.isTag rule = true) (hn : n.isTag rule = false) :
    separated rule (ns ++ [r, n]) = true := by
  refine separated_append (fun m hm => ?_) h
  simpa [separated, hr, hn] using hm

theorem arranged_outer (l : Layer) (content : List LabelNode) :
    arranged l.outer content = separated l.rule content := by
  cases l <;> rfl

theorem arranged_of_wrapsTable {t : Tag} (ht : t.wrapsTable = true) (content : List LabelNode) :
    arranged t content = content.all (isTag .table) := by
  cases t <;> first | rfl | cases ht

theorem wrapsTexts_tag {t : Tag} {attributes : Table} {content : List LabelNode} :
    (tag t attributes content).wrapsTexts = true ↔
      (t.wrapsText = true → ∀ n ∈ content, n.isText = true) ∧
        ∀ n ∈ content, n.wrapsTexts = true := by
  rw [wrapsTexts, Bool.and_eq_true, allWrapTexts_iff]
  cases t.wrapsText <;> simp

/-- The symbol of the grammar that stands for a node. -/
def symbol? : LabelNode → Option LabelSymbol
  | text _ => some .text
  | tag t _ _ =>
    if t.isTextItem then some .textItem
    else if t.isTable then some .fontTable
    else match t with
      | .tableRow => some (.division .rows)
      | .tableCell => some (.division .cells)
      | _ => none
  | _ => none

theorem symbol?_of_isText {n : LabelNode} (h : n.isText = true) : n.symbol? = some .text := by
  cases n <;> first | rfl | cases h

theorem symbol?_of_isTable {n : LabelNode} (h : n.isTable = true) :
    n.symbol? = some .fontTable := by
  cases n with
  | tag t _ _ => cases t <;> first | rfl | cases h
  | _ => cases h

theorem symbol?_of_isInner {n : LabelNode} {l : Layer} (h : n.isTag l.inner = true) :
    n.symbol? = some (.division l) := by
  cases n with
  | tag t _ _ =>
    obtain rfl : t = l.inner := by simpa [isTag] using h
    cases l <;> rfl
  | _ => cases h

theorem isTag_rule_of_isInner {n : LabelNode} {l : Layer} (h : n.isTag l.inner = true) :
    n.isTag l.rule = false := by
  cases n with
  | tag t _ _ =>
    obtain rfl : t = l.inner := by simpa [isTag] using h
    cases l <;> rfl
  | _ => cases h

end LabelNode

end DotWriter
