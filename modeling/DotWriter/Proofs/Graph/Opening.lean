import DotWriter.Proofs.Graph.Growth

/-!
# Which graphs a description opens

A description opens graphs one after another and keeps a record of them.  `Draft.Adds` and
`Draft.Fills` say what it leaves of the graphs, whether it fails or not.

* `Graph.openings` : the graphs of a tree, each before those that are nested in it;
* `Graph.Built` : the blocks of a tree can be built, and what is nested in it may be nested;
* `openGraph_leads`, `populate_leads`, `describeAll_leads` : what the parts of a description leave;
* `describe_spec` : **a description opens fresh names only, and the tree that it leaves is built and
  has the graphs that were opened**, also if it is at fault somewhere.
-/

namespace DotWriter

namespace Graph

mutual

/-- The graphs of a tree as a record shows them, each before those that are nested in it. -/
def openings : Graph → List Opened
  | mk b gs => (b.name, b.kind) :: openingsAll gs

/-- The graphs of several trees in order. -/
def openingsAll : List Graph → List Opened
  | [] => []
  | g :: gs => openings g ++ openingsAll gs

end

/-- Every block of the tree can be built, and every nested graph is of a kind that may be. -/
inductive Built : Graph → Prop
  | mk {b : Block} {gs : List Graph} (block : b.Reachable)
    (nested : ∀ g ∈ gs, g.block.kind.isSubgraph = true) (built : ∀ g ∈ gs, Built g) :
    Built (mk b gs)

/-- The tree is built, and may be nested in a graph. -/
def Nestable (g : Graph) : Prop := g.block.kind.isSubgraph = true ∧ g.Built

theorem openingsAll_append (gs hs : List Graph) :
    openingsAll (gs ++ hs) = openingsAll gs ++ openingsAll hs := by
  induction gs with
  | nil => rfl
  | cons g gs ih => rw [List.cons_append, openingsAll, openingsAll, ih, List.append_assoc]

end Graph

/-- No name of the record is one of the names `taken?`, and none occurs twice. -/
def Fresh (taken? : Option (List String)) (opened : List Opened) : Prop :=
  ∀ taken, taken? = some taken → (taken ++ opened.map fun o => o.1.render).Nodup

namespace Draft

variable {taken? : Option (List String)}

/-- Trees for which `P` holds were put at the end of the list, and their graphs were opened, under
fresh names if there were none but fresh ones before. -/
def Adds (taken? : Option (List String)) (P : Graph → Prop) (d d' : Draft (List Graph)) : Prop :=
  (Fresh taken? d.opened → Fresh taken? d'.opened) ∧
    ∃ more, d'.built = d.built ++ more ∧ d'.opened = d.opened ++ Graph.openingsAll more ∧
      ∀ g ∈ more, P g

instance (P : Graph → Prop) : IsPreorder (Draft (List Graph)) (Adds taken? P) where
  refl d := ⟨id, [], (List.append_nil _).symm, (List.append_nil _).symm, by simp⟩
  trans := by
    rintro d d' d'' ⟨hfresh, more, hbuilt, hopened, hmore⟩ ⟨hfresh', more', hbuilt', hopened', hmore'⟩
    refine ⟨hfresh' ∘ hfresh, more ++ more', ?_, ?_, List.forall_mem_append.2 ⟨hmore, hmore'⟩⟩
    · rw [hbuilt', hbuilt, List.append_assoc]
    · rw [hopened', hopened, Graph.openingsAll_append, List.append_assoc]

/-- The graph declares more, and graphs that may be nested were added to it. -/
def Fills (taken? : Option (List String)) (d d' : Draft Graph) : Prop :=
  d.built.block.Evolves d'.built.block ∧
    Adds taken? Graph.Nestable ⟨d.opened, d.built.subgraphs⟩ ⟨d'.opened, d'.built.subgraphs⟩

instance : IsPreorder (Draft Graph) (Fills taken?) where
  refl _ := ⟨refl_of _ _, refl_of _ _⟩
  trans _ _ _ h h' := ⟨trans_of _ h.1 h'.1, trans_of _ h.2 h'.2⟩

end Draft

open Draft

/-! ### Descriptions -/

section describe

variable (taken? : Option (List String))

/-- A name that is not taken is fresh. -/
theorem Fresh.concat {taken? : Option (List String)} {opened : List Opened}
    (h : Fresh taken? opened) {name : Name} (hname : isTaken taken? opened name = false)
    (kind : GraphKind) : Fresh taken? (opened ++ [(name, kind)]) := by
  rintro taken rfl
  have hnot : name.render ∉ taken ++ opened.map fun o => o.1.render := by
    simpa [isTaken] using hname
  rw [List.map_append, ← List.append_assoc]
  exact List.concat_eq_append ▸ List.Nodup.concat hnot (h taken rfl)

/-- What is left of a graph that was opened and filled: its tree, with everything that was built. -/
theorem Draft.Fills.openings {taken? : Option (List String)} {name : Name} {kind : GraphKind}
    {opened : List Opened} {left : Draft Graph}
    (h : Fills taken? ⟨opened ++ [(name, kind)], Graph.empty name kind⟩ left) :
    left.built.Built ∧ left.built.block.kind = kind ∧
      left.opened = opened ++ left.built.openings := by
  obtain ⟨hblock, -, more, hmore, hopened, hnested⟩ := h
  have hgrows := hblock (Block.Reachable.of_empty name kind)
  rcases left with ⟨left, b, gs⟩
  obtain rfl : gs = more := hmore
  have hname : b.name = name := hgrows.name_eq
  have hkind : b.kind = kind := hgrows.kind_eq
  refine ⟨.mk ((Block.Reachable.of_empty name kind).growsTo hgrows) (fun g hg => (hnested g hg).1)
    fun g hg => (hnested g hg).2, hkind, ?_⟩
  simp only [Graph.openings, hname, hkind]
  exact hopened.trans (List.append_assoc _ _ _)

theorem openGraph_leads {P : Graph → Prop} {x : Drafting Graph Unit}
    (hx : Changing.Leads (Fills taken?) x) {name : Name} {kind : GraphKind}
    (hP : ∀ g : Graph, g.Built → g.block.kind = kind → P g) :
    Changing.Leads (Adds taken? P) (Drafting.openGraph taken? name kind x) := by
  intro d
  unfold Drafting.openGraph
  rw [Changing.run_of]
  split_ifs with htaken
  · exact refl_of _ d
  · have hleft := hx ⟨d.opened ++ [(name, kind)], Graph.empty name kind⟩
    obtain ⟨hbuilt, hkind, hopened⟩ := hleft.openings
    refine ⟨fun hfresh => hleft.2.1 (hfresh.concat (by simpa using htaken) kind), [_], rfl, ?_, ?_⟩
    · rw [Graph.openingsAll, Graph.openingsAll, List.append_nil]
      exact hopened
    · simpa using hP _ hbuilt hkind

mutual

theorem populate_leads (entries : List (Raw × Raw)) :
    Changing.Leads (Fills taken?) (populate taken? entries) := by
  rw [populate]
  have hfill : Changing.Leads (Fills taken?) (Drafting.onBlock (Block.fill entries)) :=
    (Block.fill_leads entries).within fun d b h => ⟨h, refl_of _ _⟩
  refine hfill.bind fun _ => ?_
  split
  · exact .throw _
  · rename_i items h
    have : sizeOf items < sizeOf entries + 1 := by
      rw [Description.listOf_eq_ok h]
      exact Nat.lt_succ_of_le (Description.sizeOf_listed_field entries "subgraphs")
    exact (describeAll_leads items).within fun d nested h => ⟨refl_of _ _, h⟩
termination_by sizeOf entries + 1

theorem describeAll_leads (items : List Raw) :
    Changing.Leads (Adds taken? Graph.Nestable) (describeAll taken? items) := by
  cases items with
  | nil =>
    rw [describeAll]
    exact .pure _
  | cons item items =>
    have := Description.sizeOf_item_lt item items
    rw [describeAll]
    exact (describeSubgraph_leads item).bind fun _ => describeAll_leads items
termination_by sizeOf items

theorem describeSubgraph_leads (item : Raw) :
    Changing.Leads (Adds taken? Graph.Nestable) (describeSubgraph taken? item) := by
  cases item with
  | map entries =>
    rw [describeSubgraph]
    split
    · exact .throw _
    · refine (Changing.Leads.lift _).bind fun name => ?_
      refine openGraph_leads taken? (populate_leads entries) fun g hg hkind => ⟨?_, hg⟩
      rw [hkind]
      unfold Description.subgraphKind
      split_ifs <;> rfl
  | _ =>
    unfold describeSubgraph
    exact .throw _
termination_by sizeOf item + 1

end

theorem describeGraph_leads (r : Raw) :
    Changing.Leads (Adds taken? Graph.Built) (describeGraph taken? r) := by
  unfold describeGraph
  split
  · split
    · exact .throw _
    · refine (Changing.Leads.lift _).bind fun kind => (Changing.Leads.lift _).bind fun name => ?_
      exact openGraph_leads taken? (populate_leads taken? _) fun g hg _ => hg
  · exact .throw _

end describe

/-- A graph that was opened and filled is the result, and it is put at the end of the list. -/
theorem openGraph_eq_ok {taken? : Option (List String)} {name : Name} {kind : GraphKind}
    {x : Drafting Graph Unit} {d d' : Draft (List Graph)} {g : Graph} :
    (Drafting.openGraph taken? name kind x).runOn d = (.ok g, d') ↔
      isTaken taken? d.opened name = false ∧ ∃ opened,
        x.runOn ⟨d.opened ++ [(name, kind)], Graph.empty name kind⟩ = (.ok (), ⟨opened, g⟩) ∧
          d' = ⟨opened, d.built ++ [g]⟩ := by
  unfold Drafting.openGraph
  rw [Changing.run_of]
  split_ifs with htaken
  · simp [htaken]
  · rcases x.runOn ⟨d.opened ++ [(name, kind)], Graph.empty name kind⟩ with ⟨f | _, opened, built⟩
    · simp [Except.map]
    · constructor
      · rintro ⟨⟩
        exact ⟨by simpa using htaken, opened, rfl, rfl⟩
      · rintro ⟨-, _, ⟨⟩, rfl⟩
        rfl

theorem describeGraph_eq_ok {taken? : Option (List String)} {r : Raw} {d d' : Draft (List Graph)}
    {g : Graph} (h : (describeGraph taken? r).runOn d = (.ok g, d')) :
    d'.built = d.built ++ [g] := by
  unfold describeGraph at h
  split at h
  · split at h
    · cases h
    · obtain ⟨kind, -, h⟩ := Changing.run_lift_bind_eq_ok.1 h
      obtain ⟨name, -, h⟩ := Changing.run_lift_bind_eq_ok.1 h
      obtain ⟨-, opened, -, rfl⟩ := openGraph_eq_ok.1 h
      rfl
  · cases h

/-- What is left of a description is one tree, unless not even its own graph was opened. -/
theorem built_eq_nil_or (taken? : Option (List String)) (r : Raw) :
    (describe taken? r).2 = ⟨[], []⟩ ∨ ∃ g, (describe taken? r).2.built = [g] := by
  have hopen : ∀ (name : Name) (kind : GraphKind) (x : Drafting Graph Unit),
      ((Drafting.openGraph taken? name kind x).runOn ⟨[], []⟩).2 = ⟨[], []⟩ ∨
        ∃ g, ((Drafting.openGraph taken? name kind x).runOn ⟨[], []⟩).2.built = [g] := by
    intro name kind x
    simp only [Drafting.openGraph, Changing.run_of]
    split_ifs
    · exact .inl rfl
    · exact .inr ⟨_, rfl⟩
  unfold describe describeGraph
  split
  · rename_i entries
    split
    · exact .inl rfl
    · simp only [Changing.run_bind, Changing.run_lift]
      cases Description.kindOf entries with
      | error f => exact .inl rfl
      | ok kind =>
        rename_i r _
        cases Description.nameOf r with
        | error f => exact .inl rfl
        | ok name => exact hopen name kind _
  · exact .inl rfl

/-- The result of a description is the tree that it leaves. -/
theorem built_of_describe {taken? : Option (List String)} {r : Raw} {g : Graph}
    (h : (describe taken? r).1 = .ok g) : (describe taken? r).2.built = [g] :=
  describeGraph_eq_ok (d := ⟨[], []⟩) (Prod.ext h rfl)

/-- **A description opens fresh names only, and the tree that it leaves is built and has the graphs
that were opened**, also if it is at fault somewhere. -/
theorem describe_spec (taken? : Option (List String)) (r : Raw)
    (htaken : ∀ taken, taken? = some taken → taken.Nodup) :
    Fresh taken? (describe taken? r).2.opened ∧ (∀ g ∈ (describe taken? r).2.built, g.Built) ∧
      (describe taken? r).2.opened = Graph.openingsAll (describe taken? r).2.built := by
  obtain ⟨hfresh, more, hbuilt, hopened, hmore⟩ := describeGraph_leads taken? r ⟨[], []⟩
  have hbuilt' : (describe taken? r).2.built = more := hbuilt
  refine ⟨hfresh fun taken h => by simpa using htaken taken h, ?_, ?_⟩
  · rw [hbuilt']
    exact hmore
  · rw [hbuilt']
    exact hopened

end DotWriter
