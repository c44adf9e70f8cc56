import DotWriter.Proofs.Graph.Run
import DotWriter.Workspace.Graphs

/-!
# Registries over whole runs

A registry keeps the names of graphs apart.  Graphs are registered when they are made, directly, as
subgraphs or by descriptions, and the calls that make them may fail.

* `GraphStore.made`, `GraphStore.registrations` : which graphs a call makes, and which names calls
  register;
* `GraphStore.Advances` : what a call leaves of a store, and what it adds to the registries;
* `after_advances` : every call advances a store, whether it is refused or not;
* `GraphStore.RegistryLaws` : what a registry promises;
* `run_registryLaws` : **every registry keeps its promises**, whatever was done before and after it
  was made.
-/

namespace DotWriter

@[simp] theorem Registry.register_nil (q : Registry) : q.register [] = q := by
  rw [register, List.append_nil]

namespace GraphStore

/-! ### Names and graphs -/

/-- The graph of a name in a registry. -/
def lookup (s : GraphStore) (r : Nat) (key : String) : Option GraphId :=
  s.registries[r]?.bind fun r => r.find? key

/-- The graphs that a call makes, each with its registry, if it has one. -/
def made (s : GraphStore) : Call → List (Option Nat × Name)
  | .create registryId? d kind =>
    match Name.of d with
    | .ok name =>
      match (s.create registryId? name kind).1 with
      | .ok _ => [(registryId?, name)]
      | .error _ => []
    | .error _ => []
  | .createSubgraph parent d cluster =>
    match Name.of d, s.graphs[parent]? with
    | .ok name, some p =>
      match (s.createSubgraph parent name cluster).1 with
      | .ok _ => [(p.registryId?, name)]
      | .error _ => []
    | _, _ => []
  | .load registryId? r =>
    (describe (registryId?.map s.keysOf) r).2.opened.map fun o => (registryId?, o.1)
  | _ => []

/-- The names of the graphs of a registry. -/
def namesIn (r : Nat) (made : List (Option Nat × Name)) : List String :=
  made.filterMap fun m => if m.1 = some r then some m.2.render else none

/-- The names that calls register in a registry, oldest first. -/
def registrations (r : Nat) (s : GraphStore) : List Call → List String
  | [] => []
  | call :: calls => namesIn r (s.made call) ++ registrations r (s.after call) calls

/-- The graph of the entry has its name and its registry. -/
def HasGraph (s : GraphStore) (r : Nat) (e : String × GraphId) : Prop :=
  ∃ p, s.graphs[e.2]? = some p ∧ p.block.name.render = e.1 ∧ p.registryId? = some r

/-- Graphs keep their names and registries, and registries get the names of the graphs that were
made. -/
structure Advances (s s' : GraphStore) (made : List (Option Nat × Name)) : Prop where
  graph : ∀ (id : GraphId) (p : StoredGraph), s.graphs[id]? = some p →
    ∃ p' : StoredGraph, s'.graphs[id]? = some p' ∧ p'.block.name = p.block.name ∧
      p'.registryId? = p.registryId?
  registry : ∀ (r : Nat) (q : Registry), s.registries[r]? = some q →
    ∃ entries, s'.registries[r]? = some (q.register entries) ∧
      entries.map (·.1) = namesIn r made ∧ ∀ e ∈ entries, s'.HasGraph r e

namespace Advances

variable {s s' s'' : GraphStore} {made more : List (Option Nat × Name)}

theorem hasGraph (h : Advances s s' made) {r : Nat} {e : String × GraphId} (he : s.HasGraph r e) :
    s'.HasGraph r e := by
  obtain ⟨p, hp, hname, hr⟩ := he
  obtain ⟨p', hp', hname', hr'⟩ := h.graph e.2 p hp
  exact ⟨p', hp', by rw [hname', hname], hr'.trans hr⟩

theorem refl (s : GraphStore) : Advances s s [] := by
  refine ⟨fun id p hp => ⟨p, hp, rfl, rfl⟩, fun r q hq => ⟨[], ?_, rfl, by simp⟩⟩
  rw [hq, q.register_nil]

theorem trans (h : Advances s s' made) (h' : Advances s' s'' more) :
    Advances s s'' (made ++ more) := by
  refine ⟨fun id p hp => ?_, fun r q hq => ?_⟩
  · obtain ⟨p', hp', hname, hr⟩ := h.graph id p hp
    obtain ⟨p'', hp'', hname', hr'⟩ := h'.graph id p' hp'
    exact ⟨p'', hp'', hname'.trans hname, hr'.trans hr⟩
  · obtain ⟨entries, hq', hkeys, hgraphs⟩ := h.registry r q hq
    obtain ⟨entries', hq'', hkeys', hgraphs'⟩ := h'.registry r _ hq'
    refine ⟨entries ++ entries', ?_, ?_, fun e he => ?_⟩
    · rw [hq'', Registry.register, Registry.register, Registry.register, List.append_assoc]
    · rw [List.map_append, hkeys, hkeys', namesIn, namesIn, namesIn, List.filterMap_append]
    · rcases List.mem_append.1 he with he | he
      · exact h'.hasGraph (hgraphs e he)
      · exact hgraphs' e he

/-- A graph may be changed, as long as it keeps its name and its registry. -/
theorem modify {g : GraphId} {f : StoredGraph → StoredGraph}
    (hf : ∀ p, s.graphs[g]? = some p →
      (f p).block.name = p.block.name ∧ (f p).registryId? = p.registryId?) :
    Advances s (s.modify g f) [] := by
  refine ⟨fun id p hp => ?_, fun r q hq => ⟨[], by rw [q.register_nil, ← hq]; rfl, rfl, by simp⟩⟩
  simp only [GraphStore.modify, List.getElem?_modify, hp]
  split_ifs with hid
  · subst hid
    exact ⟨f p, rfl, hf p hp⟩
  · exact ⟨p, rfl, rfl, rfl⟩

theorem modifyBlock {g : GraphId} {p : StoredGraph} {b : Block} (hp : s.graphs[g]? = some p)
    (hb : b.name = p.block.name) : Advances s (s.modifyBlock g fun _ => b) [] := by
  refine modify fun q hq => ?_
  cases hp.symm.trans hq
  exact ⟨hb, rfl⟩

/-- Graphs that were opened one after another are put at the end and registered. -/
theorem opened {registryId? : Option Nat} {opened : List Opened} {new : List StoredGraph}
    (hnew : ∀ (i : Nat) (o : Opened), opened[i]? = some o →
      ∃ p, new[i]? = some p ∧ p.block.name = o.1 ∧ p.registryId? = registryId?) :
    Advances s (registerOpened { s with graphs := s.graphs ++ new } registryId? s.graphs.length
      opened) (opened.map fun o => (registryId?, o.1)) := by
  refine ⟨fun id p hp => ⟨p, ?_, rfl, rfl⟩, fun r q hq => ?_⟩
  · rw [registerOpened_graphs,
      List.getElem?_append_left (List.getElem?_eq_some_iff.1 hp).1, hp]
  · by_cases hr : registryId? = some r
    · subst hr
      refine ⟨opened.zipIdx.map fun e => (e.1.1.render, s.graphs.length + e.2), ?_, ?_, ?_⟩
      · simp [registerOpened, register, hq]
      · have hfst : (fun p : Opened × Nat => p.1.1.render) =
            (fun o : Opened => o.1.render) ∘ Prod.fst := rfl
        simp only [namesIn, List.filterMap_map, List.map_map, Function.comp_def, if_true]
        rw [hfst, ← List.map_map, List.zipIdx_map_fst, List.filterMap_eq_map']
      · intro e he
        obtain ⟨⟨o, i⟩, hmem, rfl⟩ := List.mem_map.1 he
        obtain ⟨p, hp, hname, hr⟩ := hnew i o (List.mk_mem_zipIdx_iff_getElem?.1 hmem)
        refine ⟨p, ?_, by rw [hname], hr⟩
        rw [registerOpened_graphs, List.getElem?_append_right (Nat.le_add_right _ _),
          Nat.add_sub_cancel_left, hp]
    · -- the graphs are made with another registry, or with none
      refine ⟨[], ?_, ?_, by simp⟩
      · rw [q.register_nil, ← hq]
        unfold registerOpened
        split
        · rfl
        · rename_i t
          have htr : t ≠ r := fun h => hr (h ▸ rfl)
          simp [register, htr]
      · simp [namesIn, hr]

end Advances

/-! ### Calls -/

section calls

variable {s : GraphStore} {registryId? : Option Nat} {name : Name}

theorem create_taken {r : Nat} (h : name.render ∈ s.keysOf r) (kind : GraphKind) :
    s.create (some r) name kind = (.error (.duplicateGraph name.render), s) := by
  unfold create
  simp [h]

/-- A graph that is made is the only one that was opened. -/
theorem create_free (h : ∀ r, registryId? = some r → name.render ∉ s.keysOf r)
    (kind : GraphKind) : s.create registryId? name kind = (.ok s.graphs.length,
      registerOpened { s with graphs := s.graphs ++ [⟨Block.empty name kind, registryId?, []⟩] }
        registryId? s.graphs.length [(name, kind)]) := by
  unfold create
  cases registryId? with
  | none => rfl
  | some r =>
    have hfree : (s.keysOf r).contains name.render = false := by simpa using h r rfl
    simp only [hfree]
    rfl

/-- The kind of a graph that is made to be nested. -/
def nestedKind (cluster : Bool) : GraphKind := if cluster then .clusterSubgraph else .subgraph

theorem createSubgraph_taken {parent : GraphId} {p : StoredGraph} (hp : s.graphs[parent]? = some p)
    {r : Nat} (hr : p.registryId? = some r) (h : name.render ∈ s.keysOf r) (cluster : Bool) :
    s.createSubgraph parent name cluster = (.error (.duplicateGraph name.render), s) := by
  unfold createSubgraph
  simp only [hp, hr, create_taken h]

/-- A graph that is made to be nested is nested. -/
theorem createSubgraph_free {parent : GraphId} {p : StoredGraph} (hp : s.graphs[parent]? = some p)
    (h : ∀ r, p.registryId? = some r → name.render ∉ s.keysOf r) (cluster : Bool) :
    s.createSubgraph parent name cluster = (.ok s.graphs.length,
      (s.create p.registryId? name (nestedKind cluster)).2.modify parent fun q =>
        { q with subgraphs := q.subgraphs ++ [s.graphs.length] }) := by
  have hne : parent ≠ s.graphs.length := Nat.ne_of_lt (List.getElem?_eq_some_iff.1 hp).1
  have hchild : (s.create p.registryId? name (nestedKind cluster)).2.graphs[s.graphs.length]? =
      some ⟨Block.empty name (nestedKind cluster), p.registryId?, []⟩ := by
    rw [create_free h, registerOpened_graphs]
    simp
  have hkind : (nestedKind cluster).isSubgraph = true := by
    cases cluster <;> rfl
  have hnest : (s.create p.registryId? name (nestedKind cluster)).2.nest parent s.graphs.length =
      (.ok (), (s.create p.registryId? name (nestedKind cluster)).2.modify parent fun q =>
        { q with subgraphs := q.subgraphs ++ [s.graphs.length] }) := by
    simp only [nest, hchild, Block.empty, hkind, hne]
    rfl
  have hcreate : s.create p.registryId? name (nestedKind cluster) =
      (.ok s.graphs.length, (s.create p.registryId? name (nestedKind cluster)).2) := by
    rw [create_free h]
  unfold createSubgraph
  simp only [hp]
  rw [← nestedKind, hcreate]
  simp only [hnest]

/-- Either a registry has the name already, or none does that the graph would be put into. -/
theorem taken_or_free (s : GraphStore) (registryId? : Option Nat) (name : Name) :
    (∃ r, registryId? = some r ∧ name.render ∈ s.keysOf r) ∨
      ∀ r, registryId? = some r → name.render ∉ s.keysOf r := by
  by_cases h : ∃ r, registryId? = some r ∧ name.render ∈ s.keysOf r
  · exact .inl h
  · exact .inr fun r hr hmem => h ⟨r, hr, hmem⟩

theorem create_free_advances (h : ∀ r, registryId? = some r → name.render ∉ s.keysOf r)
    (kind : GraphKind) :
    Advances s (s.create registryId? name kind).2 [(registryId?, name)] := by
  have hnew : ∀ (i : Nat) (o : Opened), [(name, kind)][i]? = some o →
      ∃ p, [(⟨Block.empty name kind, registryId?, []⟩ : StoredGraph)][i]? = some p ∧
        p.block.name = o.1 ∧ p.registryId? = registryId? := by
    intro i o ho
    cases i with
    | zero =>
      cases ho
      exact ⟨_, rfl, rfl, rfl⟩
    | succ i => cases ho
  rw [create_free h]
  exact Advances.opened hnew

end calls

mutual

theorem placed_registryId? (registryId? : Option Nat) (first : GraphId) (g : Graph) :
    ∀ p ∈ g.placed registryId? first, p.registryId? = registryId? := by
  cases g with
  | mk b gs =>
    rw [Graph.placed]
    exact List.forall_mem_cons.2 ⟨rfl, placedAll_registryId? registryId? (first + 1) gs⟩

theorem placedAll_registryId? (registryId? : Option Nat) (first : GraphId) (gs : List Graph) :
    ∀ p ∈ Graph.placedAll registryId? first gs, p.registryId? = registryId? := by
  cases gs with
  | nil => exact fun p hp => absurd hp List.not_mem_nil
  | cons g gs =>
    rw [Graph.placedAll]
    exact List.forall_mem_append.2
      ⟨placed_registryId? registryId? first g, placedAll_registryId? registryId? _ gs⟩

end

/-- A description makes the graphs that it opened, also when it fails. -/
theorem load_advances {s : GraphStore} (hs : s.Sound) (registryId? : Option Nat) (r : Raw) :
    Advances s (s.load registryId? r).2
      ((describe (registryId?.map s.keysOf) r).2.opened.map fun o => (registryId?, o.1)) := by
  have htaken : ∀ taken, registryId?.map s.keysOf = some taken → taken.Nodup := by
    intro taken h
    obtain ⟨r, -, rfl⟩ := Option.map_eq_some_iff.1 h
    exact hs.keysOf_nodup r
  obtain ⟨-, -, hopened⟩ := describe_spec _ r htaken
  unfold load
  simp only [adoptAll_eq]
  refine Advances.opened fun i o ho => ?_
  rw [hopened, ← Graph.placedAll_openings registryId? s.graphs.length, List.getElem?_map] at ho
  obtain ⟨p, hp, rfl⟩ := Option.map_eq_some_iff.1 ho
  exact ⟨p, hp, rfl, placedAll_registryId? _ _ _ p (List.mem_of_getElem? hp)⟩

theorem create_advances (s : GraphStore) (registryId? : Option Nat) (d : Datum) (kind : GraphKind) :
    Advances s (s.after (.create registryId? d kind)) (s.made (.create registryId? d kind)) := by
  simp only [after, named, made]
  cases Name.of d with
  | error f => exact .refl s
  | ok name =>
    simp only
    rcases taken_or_free s registryId? name with ⟨r, rfl, htaken⟩ | hfree
    · rw [create_taken htaken]
      exact .refl s
    · have hadvances := create_free_advances hfree kind
      rw [create_free hfree] at hadvances ⊢
      exact hadvances

theorem createSubgraph_advances (s : GraphStore) (parent : GraphId) (d : Datum) (cluster : Bool) :
    Advances s (s.after (.createSubgraph parent d cluster))
      (s.made (.createSubgraph parent d cluster)) := by
  simp only [after, named, made]
  cases Name.of d with
  | error f => exact .refl s
  | ok name =>
    cases hp : s.graphs[parent]? with
    | none =>
      unfold createSubgraph
      simp only [hp]
      exact .refl s
    | some p =>
      simp only
      rcases taken_or_free s p.registryId? name with ⟨r, hr, htaken⟩ | hfree
      · rw [createSubgraph_taken hp hr htaken]
        exact .refl s
      · rw [createSubgraph_free hp hfree]
        exact (create_free_advances hfree _).trans (.modify fun _ _ => ⟨rfl, rfl⟩)

theorem nest_advances (s : GraphStore) (parent child : GraphId) :
    Advances s (s.nest parent child).2 [] := by
  unfold nest
  split
  · exact .refl s
  · split_ifs
    · exact .refl s
    · exact .refl s
    · exact .modify fun _ _ => ⟨rfl, rfl⟩

theorem onBlock_advances (s : GraphStore) (g : GraphId) {f : Block → Except Fault Unit × Block}
    (hf : ∀ b, Block.GrowsTo b (f b).2) : Advances s (s.onBlock g f).2 [] := by
  unfold onBlock
  split
  · exact .refl s
  · rename_i p hp
    exact .modifyBlock hp (hf p.block).name_eq

/-- **Every call advances a store**, whether it is refused or not. -/
theorem after_advances {s : GraphStore} (hs : s.Sound) (call : Call) :
    Advances s (s.after call) (s.made call) := by
  cases call with
  | addRegistry =>
    refine ⟨(Advances.refl s).graph, fun r q hq => ⟨[], ?_, rfl, by simp⟩⟩
    rw [q.register_nil, ← hq]
    exact List.getElem?_append_left (List.getElem?_eq_some_iff.1 hq).1
  | create registryId? d kind => exact create_advances s registryId? d kind
  | createSubgraph parent d cluster => exact createSubgraph_advances s parent d cluster
  | nest parent child => exact nest_advances s parent child
  | addNode g d =>
    simp only [after, named]
    cases Name.of d with
    | error f => exact .refl s
    | ok name => exact onBlock_advances s g fun b => b.addNode_grows name
  | addEdge g tail head => exact onBlock_advances s g fun b => b.addEdge_grows tail head
  | addAttribute g site attr d =>
    exact onBlock_advances s g fun b => b.addAttribute_grows site attr d
  | load registryId? r => exact load_advances hs registryId? r

/-- So does a sequence of calls. -/
theorem foldl_advances (calls : List Call) {s : GraphStore} (hs : s.Sound) :
    ∃ made, Advances s (calls.foldl after s) made ∧
      ∀ r, namesIn r made = registrations r s calls := by
  induction calls generalizing s with
  | nil => exact ⟨[], .refl s, fun _ => rfl⟩
  | cons call calls ih =>
    obtain ⟨more, hadvances, hnames⟩ := ih (hs.after call)
    refine ⟨s.made call ++ more, (after_advances hs call).trans hadvances, fun r => ?_⟩
    rw [registrations, ← hnames r, namesIn, namesIn, namesIn, List.filterMap_append]

/-! ### Lookup -/

/-- What is registered under a name stays registered under it. -/
theorem find?_register {q : Registry} {key : String} {g : GraphId} (h : q.find? key = some g)
    (entries : List (String × GraphId)) : (q.register entries).find? key = some g := by
  obtain ⟨e, he, rfl⟩ := Option.map_eq_some_iff.1 h
  rw [Registry.find?, Registry.register, List.find?_append, he]
  rfl

/-- A new name is found. -/
theorem find?_register_new {q : Registry} {key : String} (h : key ∉ q.keys) (g : GraphId) :
    (q.register [(key, g)]).find? key = some g := by
  have hnone : q.entries.find? (fun e => e.1 == key) = none := by
    rw [List.find?_eq_none]
    intro e he hkey
    exact h (List.mem_map.2 ⟨e, he, by simpa using hkey⟩)
  rw [Registry.find?, Registry.register, List.find?_append, hnone]
  simp

theorem mem_of_find? {q : Registry} {key : String} {g : GraphId} (h : q.find? key = some g) :
    (key, g) ∈ q.entries := by
  obtain ⟨e, he, rfl⟩ := Option.map_eq_some_iff.1 h
  have hkey : e.1 = key := by simpa using List.find?_some he
  exact hkey ▸ List.mem_of_find?_eq_some he

theorem exists_find?_iff {q : Registry} {key : String} :
    (∃ g, q.find? key = some g) ↔ key ∈ q.keys := by
  constructor
  · rintro ⟨g, hg⟩
    exact List.mem_map.2 ⟨_, mem_of_find? hg, rfl⟩
  · intro hmem
    obtain ⟨e, he, rfl⟩ := List.mem_map.1 hmem
    obtain ⟨f, hf⟩ : ∃ f, q.entries.find? (fun f => f.1 == e.1) = some f := by
      rw [← Option.isSome_iff_exists, List.find?_isSome]
      exact ⟨e, he, by simp⟩
    exact ⟨f.2, by rw [Registry.find?, hf, Option.map_some]⟩

end GraphStore

/-! ### Questions to a registry -/

namespace Action

theorem isRegistered_run {w w' : Workspace} {e : Expression} {d : Datum}
    (h : e.evalDatum.runOn w = (.ok d, w')) (r : Nat) :
    (isRegistered (.registry r) e).runOn w =
      (.ok (match Name.of d with
        | .ok name => (w'.store.keysOf r).contains name.render
        | .error _ => false), w') := by
  have hrun : (isRegistered (.registry r) e).runOn w =
      (e.evalDatum >>= fun d => match Name.of d with
        | .ok name => do return ((← get).store.keysOf r).contains name.render
        | .error _ => return false : Action Bool).runOn w := rfl
  rw [hrun, Changing.run_bind, h]
  cases hname : Name.of d <;> simp only [hname] <;> rfl

theorem registered?_run {w w' : Workspace} {e : Expression} {d : Datum}
    (h : e.evalDatum.runOn w = (.ok d, w')) (r : Nat) :
    (registered? (.registry r) e).runOn w =
      ((Name.of d).map fun name => w'.store.lookup r name.render, w') := by
  have hrun : (registered? (.registry r) e).runOn w =
      (e.evalDatum >>= fun d => liftExcept (Name.of d) >>= fun name => do
        return (← get).store.lookup r name.render : Action (Option GraphId)).runOn w := rfl
  rw [hrun, Changing.run_bind, h]
  cases hname : Name.of d <;> simp only [hname] <;> rfl

end Action

namespace GraphStore

/-! ### The promises -/

/-- What a registry promises, if `names` were registered in it, oldest first. -/
structure RegistryLaws (s : GraphStore) (r : Nat) (names : List String) : Prop where
  /-- It holds the names that were registered, and no name twice. -/
  keys : s.keysOf r = names
  distinct : names.Nodup
  count : ∀ w : Workspace, w.store = s →
    (Action.registeredCount (.registry r)).runOn w = (.ok names.length, w)
  /-- Every name has a graph, which has this name and this registry. -/
  lookup_iff : ∀ key, (∃ g, s.lookup r key = some g) ↔ key ∈ names
  hasGraph : ∀ key g, s.lookup r key = some g → s.HasGraph r (key, g)
  /-- A name that is taken is refused, and nothing changes. -/
  create_taken : ∀ (name : Name) (kind : GraphKind), name.render ∈ names →
    s.create (some r) name kind = (.error (.duplicateGraph name.render), s)
  /-- A name that is free is registered with the new graph. -/
  create_free : ∀ (name : Name) (kind : GraphKind), name.render ∉ names →
    ∃ s', s.create (some r) name kind = (.ok s.graphs.length, s') ∧
      s'.keysOf r = names ++ [name.render] ∧
      s'.lookup r name.render = some s.graphs.length ∧
      s'.graphs = s.graphs ++ [⟨Block.empty name kind, some r, []⟩]
  /-- So it is with the subgraphs of a graph of the registry, which are nested in it. -/
  nested_taken : ∀ (parent : GraphId) (p : StoredGraph) (name : Name) (cluster : Bool),
    s.graphs[parent]? = some p → p.registryId? = some r → name.render ∈ names →
    s.createSubgraph parent name cluster = (.error (.duplicateGraph name.render), s)
  nested_free : ∀ (parent : GraphId) (p : StoredGraph) (name : Name) (cluster : Bool),
    s.graphs[parent]? = some p → p.registryId? = some r → name.render ∉ names →
    ∃ s', s.createSubgraph parent name cluster = (.ok s.graphs.length, s') ∧
      s'.keysOf r = names ++ [name.render] ∧
      s'.lookup r name.render = some s.graphs.length ∧
      s'.graphs = s.graphs.set parent { p with subgraphs := p.subgraphs ++ [s.graphs.length] } ++
        [⟨Block.empty name (nestedKind cluster), some r, []⟩]
  /-- A description that is loaded, successfully or not, changes nothing, or it leaves the tree of the
  graphs that it registered, each one before those that are nested in it. -/
  load : ∀ d : Raw, (s.load (some r) d).2 = s ∨ ∃ tree,
    (s.load (some r) d).2.tree? s.graphs.length = some tree ∧
      (s.load (some r) d).2.keysOf r = names ++ tree.openings.map fun o => o.1.render
  /-- A datum is in the registry exactly if it is a name and its graph is found. -/
  contains_iff : ∀ (w w' : Workspace) (e : Expression) (d : Datum),
    e.evalDatum.runOn w = (.ok d, w') → w'.store = s →
    ∃ b, (Action.isRegistered (.registry r) e).runOn w = (.ok b, w') ∧
      (b = true ↔ ∃ g, (Action.registered? (.registry r) e).runOn w = (.ok (some g), w'))

section laws

variable {s : GraphStore} {r : Nat} {q : Registry} {name : Name}

theorem keysOf_eq (hq : s.registries[r]? = some q) : s.keysOf r = q.keys := by
  rw [keysOf, hq, Option.map_some, Option.getD_some]

theorem lookup_eq (hq : s.registries[r]? = some q) (key : String) :
    s.lookup r key = q.find? key := by
  rw [lookup, hq, Option.bind_some]

/-- What making a graph does to its registry and to the graphs. -/
theorem create_registered (hq : s.registries[r]? = some q) (h : name.render ∉ q.keys)
    (kind : GraphKind) :
    (s.create (some r) name kind).1 = .ok s.graphs.length ∧
      (s.create (some r) name kind).2.keysOf r = q.keys ++ [name.render] ∧
      (s.create (some r) name kind).2.lookup r name.render = some s.graphs.length ∧
      (s.create (some r) name kind).2.graphs =
        s.graphs ++ [⟨Block.empty name kind, some r, []⟩] := by
  have hfree : ∀ t, some r = some t → name.render ∉ s.keysOf t := by
    rintro _ ⟨⟩
    rwa [keysOf_eq hq]
  rw [GraphStore.create_free hfree]
  have hregistry : (registerOpened
      { s with graphs := s.graphs ++ [⟨Block.empty name kind, some r, []⟩] } (some r)
      s.graphs.length [(name, kind)]).registries[r]? =
        some (q.register [(name.render, s.graphs.length)]) := by
    simp [registerOpened, register, hq]
  refine ⟨rfl, ?_, ?_, ?_⟩
  · rw [keysOf_eq hregistry, Registry.keys, Registry.register, List.map_append]
    rfl
  · rw [lookup_eq hregistry, find?_register_new h]
  · exact registerOpened_graphs _ _ _ _

/-- A load leaves the tree of the graphs that it registers, if it registers any. -/
theorem Sound.load_registered (hs : s.Sound) (hq : s.registries[r]? = some q) (d : Raw) :
    (s.load (some r) d).2 = s ∨ ∃ tree,
      (s.load (some r) d).2.tree? s.graphs.length = some tree ∧
        (s.load (some r) d).2.keysOf r = q.keys ++ tree.openings.map fun o => o.1.render := by
  rcases built_eq_nil_or (some (s.keysOf r)) d with hnone | ⟨tree, htree⟩
  · refine .inl ?_
    have hid : (fun q : Registry => q.register []) = id := funext Registry.register_nil
    have hsame : s.registerOpened (some r) s.graphs.length [] = s := by
      change ({ s with registries := s.registries.modify r fun q => q.register [] } : GraphStore) = s
      rw [hid, List.modify_id]
    simp only [GraphStore.load, Option.map_some, hnone, adoptAll, hsame]
  · refine .inr ⟨tree, tree?_load s (some r) d htree, ?_⟩
    obtain ⟨-, -, hopened⟩ := describe_spec (some (s.keysOf r)) d
      fun taken h => Option.some.inj h ▸ hs.keysOf_nodup r
    obtain ⟨entries, hq', hkeys, -⟩ := (load_advances hs (some r) d).registry r q hq
    rw [keysOf_eq hq', Registry.keys, Registry.register, List.map_append, hkeys, Option.map_some,
      hopened, htree]
    simp [namesIn, Graph.openingsAll, Registry.keys, List.filterMap_map, List.filterMap_eq_map']

/-- A sound store with a registry keeps the promises of the registry. -/
theorem Sound.registryLaws (hs : s.Sound) (hq : s.registries[r]? = some q)
    (hgraphs : ∀ e ∈ q.entries, s.HasGraph r e) : s.RegistryLaws r q.keys := by
  have hkeys := keysOf_eq hq
  have hlookup := lookup_eq hq
  have hhas : ∀ key g, s.lookup r key = some g → s.HasGraph r (key, g) := by
    intro key g h
    rw [hlookup] at h
    exact hgraphs _ (mem_of_find? h)
  refine ⟨hkeys, hs.distinct q (List.mem_of_getElem? hq), fun w hw => ?_, fun key => ?_, hhas,
    fun name kind h => ?_, fun name kind h => ?_, fun parent p name cluster hp hr h => ?_,
    fun parent p name cluster hp hr h => ?_, hs.load_registered hq, fun w w' e d heval hw => ?_⟩
  · rw [← hkeys, ← hw]
    rfl
  · rw [hlookup, exists_find?_iff]
  · exact GraphStore.create_taken (hkeys ▸ h) kind
  · obtain ⟨hresult, hrest⟩ := create_registered hq h kind
    exact ⟨_, Prod.ext hresult rfl, hrest⟩
  · exact createSubgraph_taken hp hr (hkeys ▸ h) cluster
  · obtain ⟨-, hkeys', hlookup', hgraphs'⟩ := create_registered hq h (nestedKind cluster)
    have hfree : ∀ t, p.registryId? = some t → name.render ∉ s.keysOf t := by
      intro t ht
      cases hr.symm.trans ht
      rwa [hkeys]
    refine ⟨_, createSubgraph_free hp hfree cluster, ?_⟩
    rw [hr]
    refine ⟨hkeys', hlookup', ?_⟩
    have hlt : parent < s.graphs.length := (List.getElem?_eq_some_iff.1 hp).1
    simp only [GraphStore.modify, hgraphs', List.modify_eq_set_getElem?,
      List.getElem?_append_left hlt, hp, Option.map_eq_map, Option.map_some, Option.getD_some,
      List.set_append_left _ _ hlt, hr]
  · refine ⟨_, Action.isRegistered_run heval r, ?_⟩
    rw [Action.registered?_run heval r, hw]
    cases Name.of d with
    | error f => simp [Except.map]
    | ok name => simp [Except.map, hkeys, ← exists_find?_iff, ← hlookup]

end laws

/-- **Every registry keeps its promises**, whatever was done before and after it was made, and what
is registered under a name stays registered under it. -/
theorem run_registryLaws (before calls : List Call) :
    (run (before ++ .addRegistry :: calls)).RegistryLaws (run before).registries.length
      (registrations (run before).registries.length (run before).addRegistry.2 calls) ∧
    ∀ later key g,
      (run (before ++ .addRegistry :: calls)).lookup (run before).registries.length key = some g →
      (run (before ++ .addRegistry :: calls ++ later)).lookup (run before).registries.length key =
        some g := by
  have hrun : run (before ++ .addRegistry :: calls) =
      calls.foldl after (run before).addRegistry.2 := by
    rw [run, List.foldl_append]
    rfl
  have hnew : (run before).addRegistry.2.registries[(run before).registries.length]? =
      some Registry.empty := List.getElem?_concat_length
  obtain ⟨made, hadvances, hnames⟩ := foldl_advances calls (run_sound before).addRegistry
  obtain ⟨entries, hq, hkeys, hgraphs⟩ := hadvances.registry _ _ hnew
  rw [← hrun] at hq hgraphs
  rw [hnames] at hkeys
  refine ⟨?_, fun later key g h => ?_⟩
  · rw [← hkeys]
    exact (run_sound _).registryLaws hq hgraphs
  · obtain ⟨more, hlater, -⟩ := foldl_advances later
      (run_sound (before ++ .addRegistry :: calls))
    obtain ⟨entries', hq', -⟩ := hlater.registry _ _ hq
    have hfold : run (before ++ .addRegistry :: calls ++ later) =
        later.foldl after (run (before ++ .addRegistry :: calls)) := by
      rw [run, List.foldl_append]
      rfl
    rw [hfold, lookup_eq hq']
    rw [lookup_eq hq] at h
    exact find?_register h entries'

/-- A registry that two graphs get into, while others with the same names are refused. -/
def registryCalls : List Call := [
  .create (some 0) (.raw (.text "g")) .digraph, .create (some 0) (.raw (.text "g")) .graph,
  .createSubgraph 0 (.value (.string "g")) true, .createSubgraph 0 (.raw (.text "g")) false]

set_option maxRecDepth 4000 in
theorem registryCalls_laws :
    (run (.addRegistry :: registryCalls)).RegistryLaws 0 ["g", "\"g\""] := by
  have hnames : registrations 0 (run []).addRegistry.2 registryCalls = ["g", "\"g\""] := rfl
  rw [← hnames]
  exact (run_registryLaws [] registryCalls).1

end GraphStore

end DotWriter
