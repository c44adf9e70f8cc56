import DotWriter.Proofs.Label.Depth
import DotWriter.Proofs.Label.Plan

/-!
# Labels are read back

* `Tag.kept_spec` : what a tag keeps for its attributes, and what is read back of it;
* `MarkupReader.reads_attributes`, `LabelPlan.reads_build` : the reader goes through the attributes
  of a tag and through a node;
* `LabelPlan.balanced_build` : brackets in a node are balanced;
* `label_round_trip` : **a label is one bracket up to its last character, and its content is read
  back as the tree that was built**.
-/

namespace DotWriter

/-! ### Attributes -/

theorem lastWrites_map {α β : Type} {f : AttributeId × α → AttributeId × β}
    (hf : ∀ w, (f w).1 = w.1) (ws : List (AttributeId × α)) :
    lastWrites (ws.map f) = (lastWrites ws).map f := by
  induction ws with
  | nil => rfl
  | cons w ws ih =>
    have hiff : (∃ later ∈ ws.map f, Supersedes later.1 (f w).1) ↔
        ∃ later ∈ ws, Supersedes later.1 w.1 := by
      constructor
      · rintro ⟨_, hl, hs⟩
        obtain ⟨v, hv, rfl⟩ := List.mem_map.1 hl
        exact ⟨v, hv, by rwa [hf, hf] at hs⟩
      · rintro ⟨v, hv, hs⟩
        exact ⟨f v, List.mem_map_of_mem hv, by rwa [hf, hf]⟩
    rw [List.map_cons, lastWrites, lastWrites, ih]
    by_cases h : ∃ later ∈ ws, Supersedes later.1 w.1
    · rw [if_pos h, if_pos (hiff.2 h)]
    · rw [if_neg h, if_neg fun h' => h (hiff.1 h'), List.map_cons]

/-- The text that a tag keeps for a call. -/
def keptText (legal : List AttributeId) (w : Write) : String := (w.text? legal).getD ""

theorem successes_eq (legal : List AttributeId) (ws : List Write) :
    successes legal ws = (acceptedWrites legal ws).map fun w => (w.1, keptText legal w) := by
  induction ws with
  | nil => rfl
  | cons w ws ih =>
    unfold successes acceptedWrites at ih ⊢
    rw [List.filterMap_cons, List.filter_cons]
    cases hw : w.text? legal with
    | none => simpa using ih
    | some text => simpa [keptText, hw] using ih

theorem exists_html_of_accepted {t : Tag} {ws : List Write} {w : Write}
    (h : w ∈ acceptedWrites (t.supported.map .html) ws) : ∃ a, w.1 = .html a := by
  obtain ⟨-, hsome⟩ := List.mem_filter.1 h
  obtain ⟨text, htext⟩ := Option.isSome_iff_exists.1 hsome
  unfold Write.text? at htext
  split_ifs at htext with hlegal
  obtain ⟨a, -, ha⟩ := List.mem_map.1 hlegal
  exact ⟨a, ha.symm⟩

/-- What is kept of a call that is not refused is read back as the value that it gave. -/
theorem readsBack_of_accepted {t : Tag} {ws : List Write} {w : Write}
    (h : w ∈ acceptedWrites (t.supported.map .html) ws) :
    ReadsBack (keptText (t.supported.map .html) w) w.shownText := by
  obtain ⟨-, hsome⟩ := List.mem_filter.1 h
  obtain ⟨text, htext⟩ := Option.isSome_iff_exists.1 hsome
  rw [keptText, htext, Option.getD_some]
  unfold Write.text? at htext
  split_ifs at htext with hlegal
  obtain ⟨a, -, ha⟩ := List.mem_map.1 hlegal
  cases hc : check w.1 w.2 with
  | error f => rw [hc] at htext; cases htext
  | ok text' =>
    rw [hc] at htext
    cases htext
    obtain ⟨v, hv, hcheck⟩ := check_eq_ok.1 hc
    rw [← ha] at hcheck
    obtain ⟨hadmits, hstored⟩ := checkValue_eq_ok.1 hcheck
    obtain ⟨shown, hshown, hreads⟩ := storedText_spec hadmits hstored
    have hw : w.shownText = shown := by
      rw [Write.shownText, hv]
      simp [hshown, Except.toOption]
    rwa [hw]

theorem Tag.render_tableAfter (t : Tag) (ws : List Write) :
    (t.tableAfter ws).render.toList = (t.kept ws).flatMap fun w =>
      ' ' :: (w.1.name.toList ++ '=' :: (keptText (t.supported.map .html) w).toList) := by
  rw [tableAfter, Table.toList_render_run, run_entries, successes_eq,
    lastWrites_map (f := fun w => (w.1, keptText _ w)) fun _ => rfl, List.flatMap_map]
  rfl

theorem Tag.kept_spec {t : Tag} {ws : List Write} {w : Write} (h : w ∈ t.kept ws) :
    (∀ c ∈ w.1.name.toList, isTagNameChar c = true) ∧
      ReadsBack (keptText (t.supported.map .html) w) w.shownText := by
  have haccepted := mem_of_mem_lastWrites h
  obtain ⟨a, ha⟩ := exists_html_of_accepted haccepted
  have hname : ∀ a : HtmlAttribute, a.name.toList.all isTagNameChar = true := by
    intro a
    cases a <;> decide
  exact ⟨ha ▸ List.all_eq_true.1 (hname a), readsBack_of_accepted haccepted⟩

theorem Tag.spelling_spec (t : Tag) :
    t.spelling.toList ≠ [] ∧ ∀ c ∈ t.spelling.toList, isTagNameChar c = true := by
  rw [← List.all_eq_true]
  cases t <;> decide

/-! ### Reading tags -/

namespace MarkupReader

variable {tags : List OpenTag} {seen : List Markup}

theorem ne_of_isTagNameChar {c d : Char} (hc : isTagNameChar c = true)
    (hd : isTagNameChar d = false) : c ≠ d := by
  rintro rfl
  rw [hc] at hd
  cases hd

theorem reads_attribute {naming : Bool} {h : TagHead} {name : List Char}
    (hname : ∀ c ∈ name, isTagNameChar c = true) {text shown : String}
    (htext : ReadsBack text shown) :
    Reads step ⟨tags, seen, .head naming h⟩ (' ' :: (name ++ '=' :: text.toList))
      ⟨tags, seen, .head false ⟨h.name, h.attributes ++ [(String.ofList name, shown)]⟩⟩ := by
  obtain ⟨cs, hcs, hquotable, hdecode⟩ := htext
  have hnames : Reads step ⟨tags, seen, .attribute h []⟩ name ⟨tags, seen, .attribute h name⟩ := by
    refine Reads.collect (fun acc => (⟨tags, seen, .attribute h acc⟩ : MarkupReader))
      (fun acc c hc => ?_) []
    have := ne_of_isTagNameChar (hname c hc) (d := '=') rfl
    simp [step, this, hname c hc]
  have hvalue : Reads step ⟨tags, seen, .value h name []⟩ cs ⟨tags, seen, .value h name cs⟩ := by
    refine Reads.collect (fun acc => (⟨tags, seen, .value h name acc⟩ : MarkupReader))
      (fun acc c hc => ?_) []
    simp [step, (hquotable c hc).2.2]
  have hend : step ⟨tags, seen, .value h name cs⟩ '"' =
      some ⟨tags, seen, .head false ⟨h.name, h.attributes ++ [(String.ofList name, shown)]⟩⟩ := by
    simp [step, hdecode]
  rw [hcs]
  exact .cons rfl (hnames.append (.cons rfl (.cons rfl (hvalue.append (.one hend)))))

theorem reads_attributes (tags : List OpenTag) (seen : List Markup) {legal : List AttributeId}
    {ws : List Write}
    (hws : ∀ w ∈ ws, (∀ c ∈ w.1.name.toList, isTagNameChar c = true) ∧
      ReadsBack (keptText legal w) w.shownText) (naming : Bool) (h : TagHead) :
    ∃ naming', Reads step ⟨tags, seen, .head naming h⟩
      (ws.flatMap fun w => ' ' :: (w.1.name.toList ++ '=' :: (keptText legal w).toList))
      ⟨tags, seen, .head naming' ⟨h.name, h.attributes ++
        ws.map fun w => (w.1.name, w.shownText)⟩⟩ := by
  induction ws generalizing naming h with
  | nil => exact ⟨naming, by simpa using Reads.nil⟩
  | cons w ws ih =>
    obtain ⟨⟨hname, htext⟩, hrest⟩ := List.forall_mem_cons.1 hws
    have hone : Reads step ⟨tags, seen, .head naming h⟩ _ ⟨tags, seen, _⟩ :=
      reads_attribute hname htext
    obtain ⟨naming', hreads⟩ := ih hrest false
      ⟨h.name, h.attributes ++ [(String.ofList w.1.name.toList, w.shownText)]⟩
    refine ⟨naming', ?_⟩
    have := hone.append hreads
    simpa using this

/-- The beginning of a tag, up to the character that ends it. -/
theorem reads_head (tags : List OpenTag) (seen : List Markup) (t : Tag) (ws : List Write) :
    ∃ naming, Reads step ⟨tags, seen, .opened⟩
      (t.spelling.toList ++ (t.tableAfter ws).render.toList)
      ⟨tags, seen, .head naming ⟨t.spelling.toList, t.shownAttributes ws⟩⟩ := by
  obtain ⟨hne, hname⟩ := t.spelling_spec
  -- the first character tells an opening tag from a closing one
  obtain ⟨c, cs, hcs⟩ := List.exists_cons_of_ne_nil hne
  rw [hcs] at hname ⊢
  obtain ⟨hc, hrest⟩ := List.forall_mem_cons.1 hname
  have hfirst : step ⟨tags, seen, .opened⟩ c = some ⟨tags, seen, .head true ⟨[c], []⟩⟩ := by
    have := ne_of_isTagNameChar hc (d := '/') rfl
    simp [step, this, hc]
  have hnames : Reads step ⟨tags, seen, .head true ⟨[c], []⟩⟩ cs
      ⟨tags, seen, .head true ⟨c :: cs, []⟩⟩ := by
    refine Reads.collect (fun acc => (⟨tags, seen, .head true ⟨acc, []⟩⟩ : MarkupReader))
      (fun acc d hd => ?_) [c]
    have hblank := ne_of_isTagNameChar (hrest d hd) (d := ' ') rfl
    have hslash := ne_of_isTagNameChar (hrest d hd) (d := '/') rfl
    have hend := ne_of_isTagNameChar (hrest d hd) (d := '>') rfl
    simp [step, hblank, hslash, hend, hrest d hd]
  rw [t.render_tableAfter ws]
  obtain ⟨naming, hattrs⟩ := reads_attributes tags seen (fun w hw => Tag.kept_spec hw) true
    ⟨c :: cs, []⟩
  exact ⟨naming, .cons hfirst (hnames.append hattrs)⟩

theorem endText?_eq {raw : List Char} {run : String} (h : decodeReferences raw = some run.toList)
    (mode : MarkupMode) :
    (⟨tags, seen, mode⟩ : MarkupReader).endText? raw = some (seen ++ Markup.ofRun run) := by
  simp [endText?, h]

theorem step_open {raw : List Char} {run : String} (h : decodeReferences raw = some run.toList) :
    step ⟨tags, seen, .text raw⟩ '<' = some ⟨tags, seen ++ Markup.ofRun run, .opened⟩ := by
  simp [step, endText?_eq h]

/-- Reading a text adds `parts` to what has been seen.  The last string of what has been seen may
not be complete: `run` has been seen of it. -/
def ReadsParts (cs : List Char) (parts : List Markup) : Prop :=
  ∀ (tags : List OpenTag) (seen : List Markup) (raw : List Char) (run : String),
    decodeReferences raw = some run.toList →
      ∃ seen' raw' run', Reads step ⟨tags, seen, .text raw⟩ cs ⟨tags, seen', .text raw'⟩ ∧
        decodeReferences raw' = some run'.toList ∧ ∀ more,
          seen' ++ Markup.joinFrom run' more = seen ++ Markup.joinFrom run (parts ++ more)

namespace ReadsParts

theorem nil : ReadsParts [] [] := fun _ seen raw run h => ⟨seen, raw, run, .nil, h, fun _ => rfl⟩

theorem append {cs ds : List Char} {parts parts' : List Markup} (hc : ReadsParts cs parts)
    (hd : ReadsParts ds parts') : ReadsParts (cs ++ ds) (parts ++ parts') := by
  intro tags seen raw run h
  obtain ⟨seen₁, raw₁, run₁, hreads₁, hrun₁, hseen₁⟩ := hc tags seen raw run h
  obtain ⟨seen₂, raw₂, run₂, hreads₂, hrun₂, hseen₂⟩ := hd tags seen₁ raw₁ run₁ hrun₁
  refine ⟨seen₂, raw₂, run₂, hreads₁.append hreads₂, hrun₂, fun more => ?_⟩
  rw [hseen₂, hseen₁, List.append_assoc]

theorem chars (s : String) : ReadsParts (escapeHtml s).toList [.chars (cleanText s)] := by
  intro tags seen raw run h
  have hreads : Reads step ⟨tags, seen, .text raw⟩ (escapeHtml s).toList
      ⟨tags, seen, .text (raw ++ (escapeHtml s).toList)⟩ := by
    refine Reads.collect (fun acc => (⟨tags, seen, .text acc⟩ : MarkupReader))
      (fun acc c hc => ?_) raw
    obtain ⟨hopen, hclose, -⟩ := escapeHtml_isQuotable s c hc
    simp [step, hopen, hclose]
  refine ⟨seen, _, run ++ cleanText s, hreads, ?_, fun more => rfl⟩
  rw [decodeReferences, decodeFrom_append h]
  have := decodeReferences_escapeHtml s
  rw [decodeReferences] at this
  rw [this, String.toList_append]
  rfl

theorem void (t : Tag) (ws : List Write) :
    ReadsParts ('<' :: (t.spelling.toList ++ (t.tableAfter ws).render.toList ++ ['/', '>']))
      [.void t.spelling (t.shownAttributes ws)] := by
  intro tags seen raw run h
  obtain ⟨naming, hhead⟩ := reads_head tags (seen ++ Markup.ofRun run) t ws
  refine ⟨seen ++ Markup.ofRun run ++ [.void t.spelling (t.shownAttributes ws)], [], "", ?_, rfl,
    fun more => ?_⟩
  · refine .cons (step_open h) (hhead.append (.cons rfl (.one ?_)))
    simp [step]
  · simp [Markup.joinFrom]

theorem reads_closing (tags : List OpenTag) (seen : List Markup) (t : Tag) :
    Reads step ⟨tags, seen, .closing []⟩ t.spelling.toList
      ⟨tags, seen, .closing t.spelling.toList⟩ := by
  refine Reads.collect (fun acc => (⟨tags, seen, .closing acc⟩ : MarkupReader))
    (fun acc c hc => ?_) []
  have hname := (Tag.spelling_spec t).2 c hc
  have hend := ne_of_isTagNameChar hname (d := '>') rfl
  simp [step, hend, hname]

theorem element (t : Tag) (ws : List Write) {content : List Char} {parts : List Markup}
    (hcontent : ReadsParts content parts) :
    ReadsParts ('<' :: (t.spelling.toList ++ (t.tableAfter ws).render.toList ++ '>' ::
        (content ++ '<' :: '/' :: (t.spelling.toList ++ ['>']))))
      [.element t.spelling (t.shownAttributes ws) (Markup.join parts)] := by
  intro tags seen raw run h
  obtain ⟨naming, hhead⟩ := reads_head tags (seen ++ Markup.ofRun run) t ws
  obtain ⟨seen', raw', run', hinner, hrun', hseen'⟩ := hcontent
    (⟨⟨t.spelling.toList, t.shownAttributes ws⟩, seen ++ Markup.ofRun run⟩ :: tags) [] [] "" rfl
  -- what stands between the tags is complete where the closing one begins
  have hjoin : seen' ++ Markup.ofRun run' = Markup.join parts := by
    simpa [Markup.joinFrom, Markup.join] using hseen' []
  have hclosing := reads_closing
    (⟨⟨t.spelling.toList, t.shownAttributes ws⟩, seen ++ Markup.ofRun run⟩ :: tags)
    (Markup.join parts) t
  refine ⟨seen ++ Markup.ofRun run ++
    [.element t.spelling (t.shownAttributes ws) (Markup.join parts)], [], "", ?_, rfl,
    fun more => ?_⟩
  · refine .cons (step_open h) (hhead.append (.cons rfl (hinner.append
      (.cons (step_open hrun') (.cons rfl ?_)))))
    rw [hjoin]
    refine hclosing.append (.one ?_)
    simp [step, closeTag?]
  · simp [Markup.joinFrom]

end ReadsParts

end MarkupReader

/-! ### Reading nodes -/

namespace LabelPlan

open MarkupReader

mutual

/-- Reading the text of a node adds its strings and tags to what has been seen. -/
theorem reads_build (p : LabelPlan) : ReadsParts p.written.toList p.parts := by
  cases p with
  | chars s =>
    simp only [written, parts]
    exact .chars s
  | text items =>
    simp only [written, parts]
    exact reads_buildAll items
  | tag t ws content =>
    simp only [written, parts]
    by_cases hvoid : t.isVoid = true
    · simpa [hvoid] using ReadsParts.void t ws
    · simpa [hvoid] using ReadsParts.element t ws (reads_buildAll content)

/-- Reading nodes one after the other adds their strings and tags to what has been seen. -/
theorem reads_buildAll (ps : List LabelPlan) :
    ReadsParts (writtenAll ps).toList (partsAll ps) := by
  cases ps with
  | nil => exact .nil
  | cons p ps =>
    simp only [writtenAll, partsAll, String.toList_append]
    exact (reads_build p).append (reads_buildAll ps)

end

/-- **The content of a label is read back as the tree that was built.** -/
theorem read_build (p : LabelPlan) : readMarkup p.written = some p.markup := by
  obtain ⟨seen, raw, run, hreads, hrun, hseen⟩ := p.reads_build [] [] [] "" rfl
  have hjoin : seen ++ Markup.ofRun run = p.markup := by
    simpa [Markup.joinFrom, Markup.join, markup] using hseen []
  have hfold : p.written.toList.foldlM step start = some ⟨[], seen, .text raw⟩ := hreads
  rw [readMarkup, hfold, ← hjoin]
  exact endText?_eq hrun _

/-! ### Brackets -/

theorem balanced_tableAfter (t : Tag) (ws : List Write) :
    IsBalanced (t.tableAfter ws).render.toList := by
  refine .of_no_brackets fun c hc => ?_
  rw [t.render_tableAfter ws] at hc
  obtain ⟨w, hw, hc⟩ := List.mem_flatMap.1 hc
  obtain ⟨hname, cs, hcs, hquotable, -⟩ := Tag.kept_spec hw
  simp only [hcs, List.mem_cons, List.mem_append, List.mem_nil_iff, or_false] at hc
  rcases hc with rfl | hc | rfl | rfl | hc | rfl
  · decide
  · exact ⟨ne_of_isTagNameChar (hname c hc) rfl, ne_of_isTagNameChar (hname c hc) rfl⟩
  · decide
  · decide
  · exact ⟨(hquotable c hc).1, (hquotable c hc).2.1⟩
  · decide

theorem balanced_spelling (t : Tag) : IsBalanced t.spelling.toList := by
  refine .of_no_brackets fun c hc => ?_
  have hname := t.spelling_spec.2 c hc
  exact ⟨ne_of_isTagNameChar hname rfl, ne_of_isTagNameChar hname rfl⟩

mutual

/-- Every bracket in the text of a node is closed there. -/
theorem balanced_build (p : LabelPlan) : IsBalanced p.written.toList := by
  cases p with
  | chars s =>
    simp only [written]
    exact .of_no_brackets fun c hc =>
      ⟨(escapeHtml_isQuotable s c hc).1, (escapeHtml_isQuotable s c hc).2.1⟩
  | text items =>
    simp only [written]
    exact balanced_buildAll items
  | tag t ws content =>
    simp only [written]
    have hhead := (balanced_spelling t).append (balanced_tableAfter t ws)
    have hslash : IsBalanced ['/'] := .of_no_brackets (by simp)
    by_cases hvoid : t.isVoid = true
    · have := IsBalanced.of_isMarkup (hhead.append hslash).isMarkup
      simpa [hvoid] using this
    · have hopen := IsBalanced.of_isMarkup hhead.isMarkup
      have hclose := IsBalanced.of_isMarkup (hslash.append (balanced_spelling t)).isMarkup
      have := (hopen.append (balanced_buildAll content)).append hclose
      simpa [hvoid] using this

theorem balanced_buildAll (ps : List LabelPlan) :
    IsBalanced (writtenAll ps).toList := by
  cases ps with
  | nil => exact .nil
  | cons p ps =>
    simp only [writtenAll, String.toList_append]
    exact (balanced_build p).append (balanced_buildAll ps)

end

end LabelPlan

/-- **Labels are well formed and read back.**  Every node that can be made of parts of labels has a
plan, and of every plan, the label can be written, is one bracket up to its last character, and a
reader of its content sees the tags of the plan, the attributes that were given last with their
values, and the strings. -/
theorem label_round_trip :
    (∀ n : LabelNode, n.Made → ∃ p : LabelPlan, p.build = n) ∧
      ∀ p : LabelPlan, ∃ content, p.build.render = .ok content ∧
        (Value.label p.build).render = .ok ("<" ++ content ++ ">") ∧
          IsMarkup ("<" ++ content ++ ">").toList ∧ readMarkup content = some p.markup := by
  refine ⟨fun n h => h.exists_plan, fun p => ?_⟩
  refine ⟨p.written, p.render_build, p.renderLabel_build, ?_, p.read_build⟩
  have := p.balanced_build.isMarkup
  simpa using this

/-- A cell with two attributes of one slot, around a text in two pieces. -/
def samplePlan : LabelPlan :=
  .tag .table [] [.tag .tableRow [] [.tag .tableCell
    [(.html .align, .value (.member .alignment ⟨"LEFT", by decide⟩)),
      (.html .port, .value (.string "<p>")),
      (.html .valign, .value (.member .alignment ⟨"TOP", by decide⟩))]
    [.text [.chars "a <", .chars " b\n", .tag .lineBreak [] []]]]]

theorem samplePlan_read_back : (∃ p : LabelPlan, p.build = .text [.chars "a"]) ∧
    ∃ content, samplePlan.build.render = .ok content ∧ readMarkup content = some [
      .element "TABLE" [] [.element "TR" [] [
        .element "TD" [("PORT", "<p>"), ("VALIGN", "TOP")] [.chars "a < b", .void "BR" []]]]] := by
  have hmade : (LabelNode.text [.chars "a"]).Made :=
    @LabelNode.Made.of "Text" [.raw (.text "a")] _ (by simp) rfl rfl
  refine ⟨label_round_trip.1 _ hmade, ?_⟩
  obtain ⟨content, hcontent, -, -, hread⟩ := label_round_trip.2 samplePlan
  refine ⟨content, hcontent, ?_⟩
  rw [hread]
  rfl

end DotWriter
