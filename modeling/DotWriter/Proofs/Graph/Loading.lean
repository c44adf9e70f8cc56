import DotWriter.Proofs.Graph.Registry
import DotWriter.Proofs.Graph.Requests

/-!
# What loading a description does to a registry

A description that is loaded into a registry registers the graphs that it opens, also when it fails
further on.

* `GraphStore.walk` : the numbers of a graph and of the graphs that are nested in it;
* `GraphStore.LoadLaws` : what a load leaves in a registry;
* `run_loadLaws` : **a load registers the names that were asked for, in order**, all of them if it
  succeeds and those up to the first request that is not met if it fails;
* `load_agrees` : **a registry makes no difference but that it refuses names** that are taken.
-/

namespace DotWriter

open Description

namespace GraphStore

/-! ### Graphs in the order of their registration -/

/-- The numbers of a graph and of the graphs that are nested in it, down to the given depth, each
one before those that are nested in it. -/
def walkTo (s : GraphStore) : Nat → GraphId → Option (List GraphId)
  | 0, _ => none
  | depth + 1, id => do
    let g ← s.graphs[id]?
    return id :: (← g.subgraphs.mapM (walkTo s depth)).flatten

/-- The numbers of a graph and of the graphs that are nested in it.  No graph is nested more deeply
than there are graphs. -/
def walk (s : GraphStore) (id : GraphId) : Option (List GraphId) := s.walkTo s.graphs.length id

mutual

/-- The graphs of a tree that was put into a store have successive numbers. -/
theorem walkTo_placed (registryId? : Option Nat) {s : GraphStore} (g : Graph)
    {before after : List StoredGraph}
    (hs : s.graphs = before ++ (g.placed registryId? before.length ++ after)) {depth : Nat}
    (hdepth : g.openings.length ≤ depth) :
    s.walkTo depth before.length = some (List.range' before.length g.openings.length) := by
  cases g with
  | mk b gs =>
    rw [Graph.openings, List.length_cons] at hdepth ⊢
    obtain ⟨depth, rfl⟩ : ∃ d, depth = d + 1 := ⟨depth - 1, by omega⟩
    obtain ⟨root, hfind, -, hroots, hsplit⟩ := placed_split hs
    obtain ⟨walks, hwalks, hflat⟩ :=
      mapM_walkTo_placedAll registryId? gs hsplit (Nat.le_of_succ_le_succ hdepth)
    rw [← hroots] at hwalks
    rw [List.length_append, List.length_singleton] at hflat
    rw [walkTo, hfind, List.range'_succ, ← hflat]
    simp [hwalks]

theorem mapM_walkTo_placedAll (registryId? : Option Nat) {s : GraphStore} (gs : List Graph)
    {before after : List StoredGraph}
    (hs : s.graphs = before ++ (Graph.placedAll registryId? before.length gs ++ after))
    {depth : Nat} (hdepth : (Graph.openingsAll gs).length ≤ depth) :
    ∃ walks, (Graph.roots before.length gs).mapM (s.walkTo depth) = some walks ∧
      walks.flatten = List.range' before.length (Graph.openingsAll gs).length := by
  cases gs with
  | nil => exact ⟨[], rfl, rfl⟩
  | cons g gs =>
    rw [Graph.openingsAll, List.length_append] at hdepth ⊢
    obtain ⟨⟨after', hfirst⟩, hroots, hrest⟩ := placedAll_split hs
    have hhead := walkTo_placed registryId? g hfirst (Nat.le_of_add_right_le hdepth)
    obtain ⟨walks, hwalks, hflat⟩ :=
      mapM_walkTo_placedAll registryId? gs hrest (Nat.le_of_add_left_le hdepth)
    rw [List.length_append, Graph.length_placed] at hflat
    refine ⟨List.range' before.length g.openings.length :: walks, ?_, ?_⟩
    · rw [hroots, List.mapM_cons, hhead, hwalks]
      rfl
    · rw [List.flatten_cons, hflat, List.range'_append_1]

end

/-! ### What a load registers -/

/-- The names of graphs that were opened one after another, the first of which has the given
number. -/
def entriesFrom (first : GraphId) (opened : List Opened) : List (String × GraphId) :=
  opened.zipIdx.map fun (o, i) => (o.1.render, first + i)

theorem entriesFrom_keys (first : GraphId) (opened : List Opened) :
    (entriesFrom first opened).map (·.1) = opened.map fun o => o.1.render := by
  have hcomp : (Prod.fst ∘ fun p : Opened × Nat => (p.1.1.render, first + p.2)) =
      (fun o : Opened => o.1.render) ∘ Prod.fst := rfl
  rw [entriesFrom, List.map_map, hcomp, ← List.map_map, List.zipIdx_map_fst]

theorem entriesFrom_ids (first : GraphId) (opened : List Opened) :
    (entriesFrom first opened).map (·.2) = List.range' first opened.length := by
  have hcomp : (Prod.snd ∘ fun p : Opened × Nat => (p.1.1.render, first + p.2)) =
      (first + ·) ∘ Prod.snd := rfl
  rw [entriesFrom, List.map_map, hcomp, ← List.map_map, List.zipIdx_map_snd, List.map_add_range',
    Nat.add_zero]

/-- What loading a description registers. -/
def registered (s : GraphStore) (r : Nat) (d : Raw) : List (String × GraphId) :=
  entriesFrom s.graphs.length (describe (some (s.keysOf r)) d).2.opened

/-- What loading the description `d` into the registry `r` leaves in it, if the entries `added` are
new. -/
structure LoadLaws (s : GraphStore) (r : Nat) (d : Raw) (added : List (String × GraphId)) :
    Prop where
  /-- The new entries follow the old ones, and no other registry changes. -/
  registries : (s.load (some r) d).2.registries = s.registries.modify r fun q => q.register added
  keys : (s.load (some r) d).2.keysOf r = s.keysOf r ++ added.map (·.1)
  distinct : ((s.load (some r) d).2.keysOf r).Nodup
  /-- What was registered under a name stays registered under it. -/
  kept : ∀ key g, s.lookup r key = some g → (s.load (some r) d).2.lookup r key = some g
  found : ∀ e ∈ added, (s.load (some r) d).2.lookup r e.1 = some e.2
  hasGraph : ∀ e ∈ added, (s.load (some r) d).2.HasGraph r e
  /-- The new names are those of the graphs that were asked for first. -/
  asked : (added.map fun e => some e.1) <+: (requests d).map Request.key?
  /-- If the load succeeds, they are all of these names, for the graphs of the result in order. -/
  loaded : ∀ id, (s.load (some r) d).1 = .ok id →
    (added.map fun e => some e.1) = (requests d).map Request.key? ∧
      (s.load (some r) d).2.walk id = some (added.map (·.2))
  /-- If it fails, the requests before a certain one are met, and this one is at fault itself or
  asks for a name that is taken. -/
  refused : ∀ f, (s.load (some r) d).1 = .error f →
    ∃ before q rest new more, requests d = before ++ q :: rest ∧
      List.Forall₂ Request.Accepts before new ∧
      added.map (·.1) = (new ++ more).map (fun o => o.1.render) ∧
      (q.Faulty more ∨ more = [] ∧ ∃ o, q.opened? = some o ∧ f = .duplicateGraph o.1.render ∧
        o.1.render ∈ s.keysOf r ++ added.map (·.1))

section load

variable {s : GraphStore} {r : Nat} {q : Registry} {d : Raw}

/-- A load fails exactly as the description does. -/
theorem load_eq_error {registryId? : Option Nat} {f : Fault} :
    (s.load registryId? d).1 = .error f ↔ (describe (registryId?.map s.keysOf) d).1 = .error f := by
  have hresult : (s.load registryId? d).1 =
      (describe (registryId?.map s.keysOf) d).1.map fun _ => s.graphs.length := rfl
  rw [hresult]
  cases (describe (registryId?.map s.keysOf) d).1 <;> simp [Except.map]

/-- The tree that a load leaves has the graphs that come next in the store. -/
theorem load_walk {registryId? : Option Nat} {g : Graph}
    (hg : (describe (registryId?.map s.keysOf) d).2.built = [g]) :
    (s.load registryId? d).2.walk s.graphs.length =
      some (List.range' s.graphs.length g.openings.length) := by
  have hgraphs := load_graphs s registryId? d hg
  rw [← List.append_nil (g.placed registryId? s.graphs.length)] at hgraphs
  refine walkTo_placed registryId? g hgraphs ?_
  rw [hgraphs, List.append_nil, List.length_append, Graph.length_placed]
  exact Nat.le_add_left _ _

/-- A name is taken if a registry has it or if it has been registered on the way. -/
theorem isTaken_iff {taken : List String} {opened : List Opened} {name : Name} :
    isTaken (some taken) opened name = true ↔
      name.render ∈ taken ++ opened.map fun o => o.1.render := by
  simp [isTaken]

/-- A load registers what the description opens. -/
theorem load_registries (s : GraphStore) (r : Nat) (d : Raw) :
    (s.load (some r) d).2.registries =
      s.registries.modify r fun q => q.register (s.registered r d) := by
  simp only [load, adoptAll_eq]
  rfl

theorem load_registry (hq : s.registries[r]? = some q) (d : Raw) :
    (s.load (some r) d).2.registries[r]? = some (q.register (s.registered r d)) := by
  rw [load_registries, List.getElem?_modify_eq, hq, Option.map_eq_map, Option.map_some]

theorem registered_keys (s : GraphStore) (r : Nat) (d : Raw) :
    (s.registered r d).map (·.1) =
      (describe (some (s.keysOf r)) d).2.opened.map fun o => o.1.render := by
  rw [registered, entriesFrom_keys]

theorem registered_map_some (s : GraphStore) (r : Nat) (d : Raw) :
    ((s.registered r d).map fun e => some e.1) =
      (describe (some (s.keysOf r)) d).2.opened.map fun o => some o.1.render := by
  have := congrArg (List.map some) (registered_keys s r d)
  rwa [List.map_map, List.map_map] at this

theorem registered_hasGraph (hs : s.Sound) (hq : s.registries[r]? = some q) :
    ∀ e ∈ s.registered r d, (s.load (some r) d).2.HasGraph r e := by
  obtain ⟨entries, hentries, -, hgraphs⟩ := (load_advances hs (some r) d).registry r q hq
  have heq : q.register entries = q.register (s.registered r d) :=
    Option.some.inj (hentries.symm.trans (load_registry hq d))
  obtain rfl : entries = s.registered r d := List.append_cancel_left (Registry.mk.inj heq)
  exact hgraphs

/-- A load that succeeds registers all names that were asked for, for the graphs of its result. -/
theorem registered_of_loaded (hs : s.Sound) {id : GraphId} (h : (s.load (some r) d).1 = .ok id) :
    ((s.registered r d).map fun e => some e.1) = (requests d).map Request.key? ∧
      (s.load (some r) d).2.walk id = some ((s.registered r d).map (·.2)) := by
  obtain ⟨⟨g, hg⟩, rfl⟩ := load_eq_ok.1 h
  have hbuilt := built_of_describe hg
  have hwalk := load_walk hbuilt
  rw [Option.map_some] at hg hbuilt
  have hopenings : (describe (some (s.keysOf r)) d).2.opened = g.openings := by
    obtain ⟨-, -, hopened⟩ := describe_spec (some (s.keysOf r)) d
      fun taken ht => Option.some.inj ht ▸ hs.keysOf_nodup r
    rw [hopened, hbuilt, Graph.openingsAll, Graph.openingsAll, List.append_nil]
  refine ⟨?_, ?_⟩
  · rw [registered_map_some]
    have hcourse := describe_course (some (s.keysOf r)) d
    rw [hg] at hcourse
    generalize requests d = qs, (describe none d).1 = free at hcourse ⊢
    generalize (describe (some (s.keysOf r)) d).2.opened = opened at hcourse ⊢
    cases hcourse with
    | all met => exact (Request.Accepts.keys met).symm
  · rw [hwalk, registered, entriesFrom_ids, hopenings]

/-- A load that fails registers the names up to the request that is not met. -/
theorem registered_of_refused {f : Fault} (h : (s.load (some r) d).1 = .error f) :
    ∃ before q rest new more, requests d = before ++ q :: rest ∧
      List.Forall₂ Request.Accepts before new ∧
      (s.registered r d).map (·.1) = (new ++ more).map (fun o => o.1.render) ∧
      (q.Faulty more ∨ more = [] ∧ ∃ o, q.opened? = some o ∧ f = .duplicateGraph o.1.render ∧
        o.1.render ∈ s.keysOf r ++ (s.registered r d).map (·.1)) := by
  have hf := load_eq_error.1 h
  rw [Option.map_some] at hf
  have hcourse := describe_course (some (s.keysOf r)) d
  rw [hf] at hcourse
  rw [registered_keys]
  generalize requests d = qs, (describe none d).1 = free at hcourse ⊢
  generalize (describe (some (s.keysOf r)) d).2.opened = opened at hcourse ⊢
  cases hcourse with
  | @faulty before rest q new more f met fault =>
    exact ⟨before, q, rest, new, more, rfl, met, rfl, .inl fault⟩
  | @taken before rest q _ o free met readable used =>
    rw [List.nil_append, isTaken_iff] at used
    exact ⟨before, q, rest, opened, [], rfl, met, by rw [List.append_nil],
      .inr ⟨rfl, o, readable, rfl, used⟩⟩

theorem find?_of_mem (hq : q.keys.Nodup) {e : String × GraphId} (he : e ∈ q.entries) :
    q.find? e.1 = some e.2 := by
  obtain ⟨g, hg⟩ := exists_find?_iff.2 (List.mem_map.2 ⟨e, he, rfl⟩)
  have heq : (e.1, g) = e := List.inj_on_of_nodup_map hq (mem_of_find? hg) he rfl
  rw [hg, ← heq]

/-- A load into a registry of a sound store keeps the laws. -/
theorem Sound.loadLaws (hs : s.Sound) (hq : s.registries[r]? = some q) (d : Raw) :
    s.LoadLaws r d (s.registered r d) := by
  have hq' := load_registry hq d
  have hkeys : (q.register (s.registered r d)).keys = q.keys ++ (s.registered r d).map (·.1) :=
    List.map_append
  have hdistinct := (hs.load (some r) d).keysOf_nodup r
  refine ⟨load_registries s r d, ?_, hdistinct, fun key g h => ?_, fun e he => ?_,
    registered_hasGraph hs hq, ?_, fun id h => registered_of_loaded hs h,
    fun f h => registered_of_refused h⟩
  · rw [keysOf_eq hq', keysOf_eq hq, hkeys]
  · rw [lookup_eq hq] at h
    rw [lookup_eq hq']
    exact find?_register h _
  · rw [keysOf_eq hq'] at hdistinct
    rw [lookup_eq hq']
    exact find?_of_mem hdistinct (List.mem_append_right _ he)
  · rw [registered_map_some]
    exact (describe_course (some (s.keysOf r)) d).prefix_keys

end load

/-- **What loading a description leaves in a registry**, whatever was done before and after the
registry was made, and whether the load succeeds or fails. -/
theorem run_loadLaws (before calls : List Call) (d : Raw) :
    ∃ added, (run (before ++ .addRegistry :: calls)).LoadLaws
      (run before).registries.length d added := by
  have hrun : run (before ++ .addRegistry :: calls) =
      calls.foldl after (run before).addRegistry.2 := by
    rw [run, List.foldl_append]
    rfl
  have hnew : (run before).addRegistry.2.registries[(run before).registries.length]? =
      some Registry.empty := List.getElem?_concat_length
  obtain ⟨made, hadvances, -⟩ := foldl_advances calls (run_sound before).addRegistry
  obtain ⟨entries, hq, -⟩ := hadvances.registry _ _ hnew
  rw [← hrun] at hq
  exact ⟨_, (run_sound _).loadLaws hq d⟩

/-! ### Loading without a registry -/

/-- **A registry makes no difference but that it refuses names.**  A description that can be loaded
into a registry can be loaded without one, into any store, and stands for the same tree, so that it
is written alike under every configuration and has the same multigraph.  If it cannot be loaded into
the registry, then without one it fails in the same way, unless it is refused for a name that the
registry has or that the description gives to two graphs. -/
theorem load_agrees (s t : GraphStore) (r : Nat) (d : Raw) :
    (∀ id, (s.load (some r) d).1 = .ok id → ∃ id' g, (t.load none d).1 = .ok id' ∧
      (s.load (some r) d).2.tree? id = some g ∧ (t.load none d).2.tree? id' = some g) ∧
    ∀ f, (s.load (some r) d).1 = .error f → (t.load none d).1 = .error f ∨
      ∃ key, f = .duplicateGraph key ∧
        (key ∈ s.keysOf r ∨ 2 ≤ ((requests d).map Request.key?).count (some key)) := by
  have hcourse := describe_course (some (s.keysOf r)) d
  generalize requests d = qs at hcourse ⊢
  generalize hopened : (describe (some (s.keysOf r)) d).2.opened = opened at hcourse
  constructor
  · intro id h
    obtain ⟨g, hg, htree⟩ := load_tree h
    rw [Option.map_some] at hg
    rw [hg] at hcourse
    generalize hfree : (describe none d).1 = free at hcourse
    cases hcourse with
    | all met =>
      have hload : (t.load none d).1 = .ok t.graphs.length := load_eq_ok.2 ⟨⟨_, hfree⟩, rfl⟩
      obtain ⟨g', hg', htree'⟩ := load_tree hload
      cases hfree.symm.trans hg'
      exact ⟨t.graphs.length, g, hload, htree, htree'⟩
  · intro f h
    have hf := load_eq_error.1 h
    rw [Option.map_some] at hf
    rw [hf] at hcourse
    generalize hfree : (describe none d).1 = free at hcourse
    cases hcourse with
    | faulty met fault => exact .inl (load_eq_error.2 hfree)
    | @taken before rest q new o free met readable used =>
      rw [List.nil_append, isTaken_iff, List.mem_append] at used
      refine .inr ⟨_, rfl, used.imp_right fun hmem => ?_⟩
      -- the name was asked for before, and it is asked for again
      have hbefore : some o.1.render ∈ before.map Request.key? := by
        rw [Request.Accepts.keys met]
        obtain ⟨o', ho', heq⟩ := List.mem_map.1 hmem
        exact List.mem_map.2 ⟨o', ho', congrArg some heq⟩
      have hagain : some o.1.render ∈ (q :: rest).map Request.key? :=
        List.mem_map.2 ⟨q, List.mem_cons_self, Request.key?_eq readable⟩
      rw [List.map_append, List.count_append]
      exact Nat.add_le_add (List.one_le_count_iff.2 hbefore) (List.one_le_count_iff.2 hagain)

end GraphStore

end DotWriter
