import DotWriter.Proofs.Graph.Described
import DotWriter.Proofs.Graph.Opening

/-!
# The graphs that a description asks for

A description asks for its own graph and for those that are nested in it, in the order in which they
are written down.  `Description.requests` reads this off the description, without opening a graph,
and says nothing about what is wrong with it.

* `Request.Accepts`, `Request.Faulty` : which requests are met, and which are at fault themselves;
* `Course` : how meeting requests one after another can end, with taken names and without;
* `Follows` : a computation meets requests in order, whatever names are taken;
* `describeAll_follows`, `describeSubgraph_follows` : what the parts of a description do;
* `describeGraph_follows` : **a description meets its requests in order**, up to the first one that
  is at fault or whose name is taken.
-/

namespace DotWriter

open Description

/-- A graph that a description asks for: its kind, if the description names one, and the entries
that describe it. -/
structure Request where
  kind? : Option GraphKind
  entries : List (Raw × Raw)

namespace Request

/-- The name of the graph, if there is one. -/
def name? (q : Request) : Option Name := (nameOf (field q.entries "name")).toOption

/-- The name as it is written. -/
def key? (q : Request) : Option String := q.name?.map Name.render

/-- The graph that is opened for the request, unless its name is taken. -/
def opened? (q : Request) : Option Opened := do return (← q.name?, ← q.kind?)

/-- What the request says can be taken over into the graph `o`, its subgraphs aside. -/
structure Accepts (q : Request) (o : Opened) : Prop where
  opened : q.opened? = some o
  filled : ((Block.fill q.entries).runOn (Block.empty o.1 o.2)).1 = .ok ()
  nested : ∃ items, listOf (field q.entries "subgraphs") .subgraphsNotList = .ok items

/-- Something is wrong with the request itself.  A graph whose name and kind can be read is opened
all the same. -/
inductive Faulty (q : Request) : List Opened → Prop
  | unreadable (h : q.opened? = none) : Faulty q []
  | unfilled {o : Opened} (h : q.opened? = some o) (hnot : ¬ q.Accepts o) : Faulty q [o]

theorem key?_eq {q : Request} {o : Opened} (h : q.opened? = some o) :
    q.key? = some o.1.render := by
  obtain ⟨name, hname, h⟩ := Option.bind_eq_some_iff.1 h
  obtain ⟨kind, -, h⟩ := Option.bind_eq_some_iff.1 h
  cases h
  rw [key?, hname, Option.map_some]

theorem Accepts.keys {qs : List Request} {new : List Opened} (h : List.Forall₂ Accepts qs new) :
    qs.map key? = new.map fun o => some o.1.render := by
  induction h with
  | nil => rfl
  | cons hq _ ih => rw [List.map_cons, List.map_cons, ih, key?_eq hq.opened]

/-- What a request that is at fault opens is its own graph at most. -/
theorem Faulty.prefix_keys {q : Request} {more : List Opened} (h : q.Faulty more) :
    (more.map fun o => some o.1.render) <+: [q.key?] := by
  cases h with
  | unreadable h => exact List.nil_prefix
  | unfilled h hnot => exact key?_eq h ▸ List.prefix_refl _

end Request

namespace Description

mutual

/-- The graphs that the items of a list ask for.  What is no mapping asks for a graph without a
name. -/
def requestsOf : List Raw → List Request
  | [] => []
  | .map entries :: items =>
    (⟨some (subgraphKind entries), entries⟩ :: nestedRequests entries) ++ requestsOf items
  | _ :: items => ⟨none, []⟩ :: requestsOf items
termination_by items => sizeOf items

/-- The graphs that are to be nested in the graph of the entries. -/
def nestedRequests (entries : List (Raw × Raw)) : List Request :=
  requestsOf (listed (field entries "subgraphs"))
termination_by sizeOf entries + 1
decreasing_by exact Nat.lt_succ_of_le (sizeOf_listed_field entries "subgraphs")

end

/-- **The graphs that a description asks for**, its own one first and each one before those that are
nested in it. -/
def requests : Raw → List Request
  | .map entries => ⟨(kindOf entries).toOption, entries⟩ :: nestedRequests entries
  | _ => [⟨none, []⟩]

end Description

/-- How meeting requests in order can end, if the graphs `opened` were opened before and some names
are taken: with the graphs `new`, an outcome, and the outcome that there is if no names are taken.
Only a name that is taken makes a difference between both outcomes. -/
inductive Course {α : Type} (taken? : Option (List String)) (opened : List Opened) :
    List Request → List Opened → Except Fault α → Except Fault α → Prop
  | all {qs : List Request} {new : List Opened} {a : α}
    (met : List.Forall₂ Request.Accepts qs new) :
    Course taken? opened qs new (.ok a) (.ok a)
  | faulty {before rest : List Request} {q : Request} {new more : List Opened} {f : Fault}
    (met : List.Forall₂ Request.Accepts before new) (fault : q.Faulty more) :
    Course taken? opened (before ++ q :: rest) (new ++ more) (.error f) (.error f)
  | taken {before rest : List Request} {q : Request} {new : List Opened} {o : Opened}
    {free : Except Fault α} (met : List.Forall₂ Request.Accepts before new)
    (readable : q.opened? = some o) (used : isTaken taken? (opened ++ new) o.1 = true) :
    Course taken? opened (before ++ q :: rest) new (.error (.duplicateGraph o.1.render)) free

/-- The result of a description with what it has built, if it succeeds. -/
def ending {α τ : Type} (p : Except Fault α × Draft τ) : Except Fault (α × τ) :=
  p.1.map (·, p.2.built)

/-- The computation meets the requests in order, whatever names are taken. -/
def Follows {α τ : Type} (x : Option (List String) → Drafting τ α) (qs : List Request) : Prop :=
  ∀ taken? built opened opened', ∃ new,
    ((x taken?).runOn ⟨opened, built⟩).2.opened = opened ++ new ∧
    Course taken? opened qs new (ending ((x taken?).runOn ⟨opened, built⟩))
      (ending ((x none).runOn ⟨opened', built⟩))

section ending

variable {α τ : Type} {x : Except Fault α} {d : Draft τ}

theorem ending_eq_ok {p : α × τ} : ending (x, d) = .ok p ↔ ∃ a, x = .ok a ∧ (a, d.built) = p :=
  Outcome.map_eq_ok

theorem ending_eq_error {f : Fault} : ending (x, d) = .error f ↔ x = .error f := by
  cases x <;> simp [ending, Except.map]

end ending

namespace Course

variable {α β : Type} {taken? : Option (List String)} {opened new : List Opened}
  {qs : List Request} {x free : Except Fault α}

/-- The first request is at fault. -/
theorem faulty_first {q : Request} {rest : List Request} {f : Fault} (fault : q.Faulty new) :
    Course taken? opened (q :: rest) new (.error f : Except Fault α) (.error f) := by
  have h := @Course.faulty α taken? opened [] rest q [] new f .nil fault
  rwa [List.nil_append, List.nil_append] at h

/-- The name of the first request is taken. -/
theorem taken_first {q : Request} {rest : List Request} {o : Opened}
    (readable : q.opened? = some o) (used : isTaken taken? opened o.1 = true) :
    Course taken? opened (q :: rest) [] (.error (.duplicateGraph o.1.render)) free := by
  refine @Course.taken α taken? opened [] rest q [] o free .nil readable ?_
  rwa [List.append_nil]

theorem map (h : Course taken? opened qs new x free) (f : α → β) :
    Course taken? opened qs new (x.map f) (free.map f) := by
  cases h with
  | all met => exact .all met
  | faulty met fault => exact .faulty met fault
  | taken met readable used => exact .taken met readable used

/-- Requests may have been met before. -/
theorem after {before : List Request} {old : List Opened}
    (met : List.Forall₂ Request.Accepts before old)
    (h : Course taken? (opened ++ old) qs new x free) :
    Course taken? opened (before ++ qs) (old ++ new) x free := by
  cases h with
  | all h => exact .all (List.rel_append met h)
  | faulty h fault =>
    rw [← List.append_assoc, ← List.append_assoc]
    exact .faulty (List.rel_append met h) fault
  | taken h readable used =>
    rw [← List.append_assoc]
    rw [List.append_assoc] at used
    exact .taken (List.rel_append met h) readable used

/-- The graphs that are opened have the names that are asked for first. -/
theorem prefix_keys (h : Course taken? opened qs new x free) :
    (new.map fun o => some o.1.render) <+: qs.map Request.key? := by
  cases h with
  | all met => exact Request.Accepts.keys met ▸ List.prefix_refl _
  | faulty met fault =>
    rw [List.map_append, List.map_append, Request.Accepts.keys met, List.map_cons]
    exact (List.prefix_append_right_inj _).2
      (fault.prefix_keys.trans (List.prefix_append [_] _))
  | taken met =>
    rw [List.map_append, Request.Accepts.keys met]
    exact List.prefix_append _ _

end Course

namespace Follows

variable {α β τ : Type}

theorem pure (a : α) : Follows (fun _ => (Pure.pure a : Drafting τ α)) [] :=
  fun _ _ opened _ => ⟨[], (List.append_nil opened).symm, .all .nil⟩

/-- A graph that cannot be opened ends the description. -/
theorem throw {q : Request} (h : q.opened? = none) (f : Fault) (rest : List Request) :
    Follows (fun _ => (MonadExcept.throw f : Drafting τ α)) (q :: rest) :=
  fun _ _ opened _ => ⟨[], (List.append_nil opened).symm, .faulty_first (.unreadable h)⟩

theorem bind {x : Option (List String) → Drafting τ α} {f : α → Option (List String) → Drafting τ β}
    {qs more : List Request} (hx : Follows x qs) (hf : ∀ a, Follows (f a) more) :
    Follows (fun taken? => x taken? >>= fun a => f a taken?) (qs ++ more) := by
  intro taken? built opened opened'
  obtain ⟨new, hnew, hcourse⟩ := hx taken? built opened opened'
  rw [Changing.run_bind, Changing.run_bind]
  rcases hx₁ : (x taken?).runOn ⟨opened, built⟩ with ⟨res, left, built₁⟩
  rcases hx₂ : (x none).runOn ⟨opened', built⟩ with ⟨free, left', built₂⟩
  rw [hx₁] at hnew hcourse
  rw [hx₂] at hcourse
  obtain rfl : left = opened ++ new := hnew
  generalize hres : ending (res, Draft.mk (opened ++ new) built₁) = ended at hcourse
  generalize hfree : ending (free, Draft.mk left' built₂) = freely at hcourse
  cases hcourse with
  | all met =>
    -- both runs go on from what they have built, the first one from the record that it left
    obtain ⟨a, rfl, rfl⟩ := ending_eq_ok.1 hres
    obtain ⟨_, rfl, heq⟩ := ending_eq_ok.1 hfree
    cases heq
    obtain ⟨more, hmore, hcourse⟩ := hf a taken? built₁ (opened ++ new) left'
    exact ⟨new ++ more, by rw [← List.append_assoc]; exact hmore, hcourse.after met⟩
  | faulty met fault =>
    obtain rfl := ending_eq_error.1 hres
    obtain rfl := ending_eq_error.1 hfree
    refine ⟨_, rfl, ?_⟩
    rw [List.append_assoc, List.cons_append]
    exact .faulty met fault
  | taken met readable used =>
    obtain rfl := ending_eq_error.1 hres
    refine ⟨_, rfl, ?_⟩
    rw [List.append_assoc, List.cons_append]
    exact .taken met readable used

end Follows

/-! ### Descriptions -/

/-- A graph takes over what is said about itself and then meets the requests for its subgraphs. -/
theorem populate_eq (taken? : Option (List String)) (entries : List (Raw × Raw)) :
    populate taken? entries = (do
      .onBlock (Block.fill entries)
      let items ← liftExcept (listOf (field entries "subgraphs") .subgraphsNotList)
      .onSubgraphs (describeAll taken? items)) := by
  rw [populate]
  congr 1
  funext _
  split <;> rename_i h <;> simp only [h] <;> rfl

section populate

variable (taken? : Option (List String)) {entries : List (Raw × Raw)} (opened : List Opened)
  {name : Name} {kind : GraphKind} {b : Block}

theorem onBlock_empty (x : Changing Block Unit) :
    (Drafting.onBlock x).runOn ⟨opened, Graph.empty name kind⟩ =
      ((x.runOn (Block.empty name kind)).1,
        ⟨opened, .mk (x.runOn (Block.empty name kind)).2 []⟩) := rfl

theorem populate_unfilled {f : Fault}
    (hfill : (Block.fill entries).runOn (Block.empty name kind) = (.error f, b)) :
    (populate taken? entries).runOn ⟨opened, Graph.empty name kind⟩ =
      (.error f, ⟨opened, .mk b []⟩) := by
  rw [populate_eq, Changing.run_bind, onBlock_empty, hfill]

theorem populate_filled
    (hfill : (Block.fill entries).runOn (Block.empty name kind) = (.ok (), b)) :
    (populate taken? entries).runOn ⟨opened, Graph.empty name kind⟩ =
      match listOf (field entries "subgraphs") .subgraphsNotList with
      | .error f => (.error f, ⟨opened, .mk b []⟩)
      | .ok items =>
        let (result, left) := (describeAll taken? items).runOn ⟨opened, []⟩
        (result, ⟨left.opened, .mk b left.built⟩) := by
  rw [populate_eq, Changing.run_bind, onBlock_empty, hfill]
  simp only [Changing.run_bind, Changing.run_lift]
  cases listOf (field entries "subgraphs") .subgraphsNotList <;> rfl

end populate

/-- A graph that is opened for a request and filled meets the request and then those nested in
it. -/
theorem openGraph_follows {q : Request} {o : Opened} (ho : q.opened? = some o)
    (hnested : Follows (fun taken? => describeAll taken? (listed (field q.entries "subgraphs")))
      (nestedRequests q.entries)) :
    Follows (fun taken? => Drafting.openGraph taken? o.1 o.2 (populate taken? q.entries))
      (q :: nestedRequests q.entries) := by
  intro taken? built opened opened'
  simp only [Drafting.openGraph, Changing.run_of]
  have hfree : isTaken none opened' o.1 = false := rfl
  rw [hfree, if_neg Bool.false_ne_true]
  split_ifs with hused
  · exact ⟨[], (List.append_nil _).symm, .taken_first ho hused⟩
  cases hfill : (Block.fill q.entries).runOn (Block.empty o.1 o.2) with
  | mk result b =>
    cases result with
    | error f =>
      have hnot : ¬ q.Accepts o := fun h => by
        have := h.filled
        rw [hfill] at this
        cases this
      simp only [populate_unfilled _ _ hfill]
      exact ⟨[o], rfl, .faulty_first (.unfilled ho hnot)⟩
    | ok _ =>
      simp only [populate_filled _ _ hfill]
      cases hitems : listOf (field q.entries "subgraphs") .subgraphsNotList with
      | error f =>
        have hnot : ¬ q.Accepts o := fun h => by
          obtain ⟨items, h⟩ := h.nested
          cases hitems.symm.trans h
        exact ⟨[o], rfl, .faulty_first (.unfilled ho hnot)⟩
      | ok items =>
        obtain rfl := listOf_eq_ok hitems
        have hq : q.Accepts o := ⟨ho, by rw [hfill], ⟨_, hitems⟩⟩
        obtain ⟨new, hnew, hcourse⟩ := hnested taken? [] (opened ++ [o]) (opened' ++ [o])
        refine ⟨[o] ++ new, ?_, ?_⟩
        · rw [← List.append_assoc]
          exact hnew
        · -- what is left of the subgraphs makes the graph, which is put at the end
          have hgraph : ∀ p : Except Fault Unit × Draft (List Graph),
              (ending p).map (fun e => (Graph.mk b e.2, built ++ [Graph.mk b e.2])) =
                ending (p.1.map fun _ => Graph.mk b p.2.built,
                  ⟨p.2.opened, built ++ [Graph.mk b p.2.built]⟩) := by
            rintro ⟨_ | _, _⟩ <;> rfl
          have := hcourse.map fun e => (Graph.mk b e.2, built ++ [Graph.mk b e.2])
          rw [hgraph, hgraph] at this
          exact Course.after (.cons hq .nil) this

/-- The name of a graph of a known kind is read before the graph is opened. -/
theorem readName_follows {q : Request} {kind : GraphKind} (hkind : q.kind? = some kind) {r : Raw}
    (hr : Raw.get? q.entries "name" = some r)
    (hnested : Follows (fun taken? => describeAll taken? (listed (field q.entries "subgraphs")))
      (nestedRequests q.entries)) :
    Follows (fun taken? => do
      let name ← liftExcept (nameOf r)
      Drafting.openGraph taken? name kind (populate taken? q.entries))
      (q :: nestedRequests q.entries) := by
  have hname : q.name? = (nameOf r).toOption := by
    rw [Request.name?, field, hr, Option.getD_some]
  cases hof : nameOf r with
  | error f =>
    rw [hof] at hname
    exact .throw (by rw [Request.opened?, hname]; rfl) f _
  | ok name =>
    rw [hof] at hname
    exact openGraph_follows (o := (name, kind)) (by rw [Request.opened?, hname, hkind]; rfl) hnested

theorem opened?_of_name_missing {q : Request} (h : Raw.get? q.entries "name" = none) :
    q.opened? = none := by
  rw [Request.opened?, Request.name?, field, h]
  rfl

theorem requestsOf_cons (item : Raw) (items : List Raw) :
    requestsOf (item :: items) = requestsOf [item] ++ requestsOf items := by
  cases item <;> simp [requestsOf]

mutual

theorem describeAll_follows (items : List Raw) :
    Follows (fun taken? => describeAll taken? items) (requestsOf items) := by
  cases items with
  | nil =>
    simp only [describeAll, requestsOf]
    exact .pure ()
  | cons item items =>
    simp only [describeAll]
    rw [requestsOf_cons]
    have := sizeOf_item_lt item items
    exact (describeSubgraph_follows item).bind fun _ => describeAll_follows items
termination_by sizeOf items

theorem describeSubgraph_follows (item : Raw) :
    Follows (fun taken? => describeSubgraph taken? item) (requestsOf [item]) := by
  cases item with
  | map entries =>
    have : sizeOf (listed (field entries "subgraphs")) < 1 + sizeOf entries :=
      Nat.lt_one_add_iff.2 (sizeOf_listed_field entries "subgraphs")
    have hnested := describeAll_follows (listed (field entries "subgraphs"))
    rw [← nestedRequests] at hnested
    simp only [describeSubgraph, requestsOf, List.append_nil]
    cases hname : Raw.get? entries "name" with
    | none => exact .throw (opened?_of_name_missing hname) _ _
    | some r =>
      exact readName_follows (q := ⟨some (subgraphKind entries), entries⟩) rfl hname hnested
  | _ =>
    simp only [describeSubgraph, requestsOf]
    exact .throw rfl _ _
termination_by sizeOf item

end

/-- **A description meets its requests in order**, up to the first one that is at fault or whose
name is taken. -/
theorem describeGraph_follows (r : Raw) :
    Follows (fun taken? => describeGraph taken? r) (requests r) := by
  cases r with
  | map entries =>
    have hnested := describeAll_follows (listed (field entries "subgraphs"))
    rw [← nestedRequests] at hnested
    simp only [describeGraph, requests]
    cases hname : Raw.get? entries "name" with
    | none => exact .throw (opened?_of_name_missing hname) _ _
    | some rawName =>
      cases hkind : kindOf entries with
      | error f =>
        exact .throw (by simp [Request.opened?, Except.toOption]) f _
      | ok kind => exact readName_follows (q := ⟨some kind, entries⟩) rfl hname hnested
  | _ =>
    simp only [describeGraph, requests]
    exact .throw rfl _ _

/-- How a description ends, with taken names and without. -/
theorem describe_course (taken? : Option (List String)) (r : Raw) :
    Course taken? [] (requests r) (describe taken? r).2.opened (describe taken? r).1
      (describe none r).1 := by
  obtain ⟨new, hnew, hcourse⟩ := describeGraph_follows r taken? [] [] []
  obtain rfl : (describe taken? r).2.opened = new := hnew
  have hfst : ∀ p : Except Fault Graph × Draft (List Graph), (ending p).map Prod.fst = p.1 := by
    rintro ⟨_ | _, _⟩ <;> rfl
  have := hcourse.map Prod.fst
  rwa [hfst, hfst] at this

end DotWriter
