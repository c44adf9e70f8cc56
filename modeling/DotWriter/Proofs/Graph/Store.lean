import DotWriter.Graph.Store
import DotWriter.Proofs.Graph.Opening

/-!
# What a store of graphs promises

A store refers to graphs by numbers.  `GraphStore.Sound` says that these references are good: what
is nested in a graph is there and may be nested, and what is registered under a name is there and
has that name.

* `GraphStore.adopt_eq` : a tree is put into a store as the list `Graph.placed`;
* `Sound.extend`, `Sound.modify`, `Sound.register` : the three things that can be done to a store;
* `Sound.create`, `Sound.nest`, `Sound.createSubgraph`, `Sound.addNode`, `Sound.addEdge`,
  `Sound.addAttribute`, `Sound.load` : **every operation keeps the promise**, also when it fails;
* `Sound.built` : the trees of a sound store are built;
* `tree?_load` : what was built of a description is found in the store after it was loaded.
-/

namespace DotWriter

/-! ### Trees in a store -/

namespace Graph

/-- The numbers of trees that are put into a store one after another. -/
def roots (first : GraphId) : List Graph → List GraphId
  | [] => []
  | g :: gs => first :: roots (first + g.openings.length) gs

mutual

/-- The graphs of a tree as a store keeps them, if the first one gets the number `first`. -/
def placed (registryId? : Option Nat) (first : GraphId) : Graph → List StoredGraph
  | mk b gs => ⟨b, registryId?, roots (first + 1) gs⟩ :: placedAll registryId? (first + 1) gs

/-- The graphs of several trees. -/
def placedAll (registryId? : Option Nat) (first : GraphId) : List Graph → List StoredGraph
  | [] => []
  | g :: gs =>
    placed registryId? first g ++ placedAll registryId? (first + g.openings.length) gs

end

mutual

theorem placed_openings (registryId? : Option Nat) (first : GraphId) (g : Graph) :
    (placed registryId? first g).map (fun p => (p.block.name, p.block.kind)) = g.openings := by
  cases g with
  | mk b gs => rw [placed, openings, List.map_cons, placedAll_openings]

theorem placedAll_openings (registryId? : Option Nat) (first : GraphId) (gs : List Graph) :
    (placedAll registryId? first gs).map (fun p => (p.block.name, p.block.kind)) =
      openingsAll gs := by
  cases gs with
  | nil => rfl
  | cons g gs =>
    rw [placedAll, openingsAll, List.map_append, placed_openings, placedAll_openings]

end

theorem length_placed (registryId? : Option Nat) (first : GraphId) (g : Graph) :
    (placed registryId? first g).length = g.openings.length := by
  rw [← placed_openings registryId? first g, List.length_map]

end Graph

namespace GraphStore

mutual

theorem adopt_eq (s : GraphStore) (registryId? : Option Nat) (g : Graph) :
    s.adopt registryId? g = (s.graphs.length,
      { s with graphs := s.graphs ++ g.placed registryId? s.graphs.length }) := by
  cases g with
  | mk b gs =>
    rw [adopt]
    simp only [insert, adoptAll_eq, modify, List.length_append, List.length_singleton,
      List.append_assoc, Graph.placed]
    -- the graph learns about its subgraphs after they were put into the store
    rw [List.modify_eq_take_drop]
    simp

theorem adoptAll_eq (s : GraphStore) (registryId? : Option Nat) (gs : List Graph) :
    s.adoptAll registryId? gs = (Graph.roots s.graphs.length gs,
      { s with graphs := s.graphs ++ Graph.placedAll registryId? s.graphs.length gs }) := by
  cases gs with
  | nil => simp [adoptAll, Graph.roots, Graph.placedAll]
  | cons g gs =>
    rw [adoptAll]
    simp only [adopt_eq, adoptAll_eq, List.length_append, Graph.length_placed, List.append_assoc,
      Graph.roots, Graph.placedAll]

end

end GraphStore

/-- The block of a stored graph can be built, and what is nested in it is there and may be
nested. -/
structure StoredGraph.SoundIn (graphs : List StoredGraph) (p : StoredGraph) : Prop where
  block : p.block.Reachable
  nested : ∀ c ∈ p.subgraphs, ∃ child, graphs[c]? = some child ∧ child.block.kind.isSubgraph = true

theorem StoredGraph.SoundIn.append {graphs : List StoredGraph} {p : StoredGraph}
    (h : p.SoundIn graphs) (more : List StoredGraph) : p.SoundIn (graphs ++ more) := by
  refine ⟨h.block, fun c hc => ?_⟩
  obtain ⟨child, hchild, hk⟩ := h.nested c hc
  obtain ⟨hlt, -⟩ := List.getElem?_eq_some_iff.1 hchild
  exact ⟨child, by rw [List.getElem?_append_left hlt, hchild], hk⟩

namespace Graph

theorem roots_nested (registryId? : Option Nat) {gs : List Graph}
    (hk : ∀ g ∈ gs, g.block.kind.isSubgraph = true) (before : List StoredGraph) :
    ∀ c ∈ roots before.length gs, ∃ child,
      (before ++ placedAll registryId? before.length gs)[c]? = some child ∧
        child.block.kind.isSubgraph = true := by
  induction gs generalizing before with
  | nil => simp [roots]
  | cons g gs ih =>
    obtain ⟨hg, hgs⟩ := List.forall_mem_cons.1 hk
    intro c hc
    rw [placedAll, ← List.append_assoc]
    rcases List.mem_cons.1 hc with rfl | hc
    · cases g with
      | mk b gs' => exact ⟨⟨b, registryId?, roots (before.length + 1) gs'⟩, by simp [placed], hg⟩
    · have hlen : before.length + g.openings.length =
          (before ++ placed registryId? before.length g).length := by
        rw [List.length_append, length_placed]
      rw [hlen] at hc ⊢
      exact ih hgs _ c hc

mutual

theorem placed_sound (registryId? : Option Nat) {g : Graph} (hg : g.Built)
    (before : List StoredGraph) :
    ∀ p ∈ g.placed registryId? before.length,
      p.SoundIn (before ++ g.placed registryId? before.length) := by
  cases hg with
  | @mk b gs hb hk hgs =>
    -- the first graph stands before those that it refers to
    have hsplit : before ++ (mk b gs).placed registryId? before.length =
        (before ++ [⟨b, registryId?, roots (before.length + 1) gs⟩]) ++
          placedAll registryId? (before.length + 1) gs := by
      rw [placed, List.append_assoc, List.singleton_append]
    have hlen : before.length + 1 =
        (before ++ [(⟨b, registryId?, roots (before.length + 1) gs⟩ : StoredGraph)]).length := by
      rw [List.length_append, List.length_singleton]
    intro p hp
    rw [hsplit]
    rw [placed] at hp
    rcases List.mem_cons.1 hp with rfl | hp
    · refine ⟨hb, ?_⟩
      have := roots_nested registryId? hk
        (before ++ [(⟨b, registryId?, roots (before.length + 1) gs⟩ : StoredGraph)])
      rwa [← hlen] at this
    · have := placedAll_sound registryId? hgs
        (before ++ [(⟨b, registryId?, roots (before.length + 1) gs⟩ : StoredGraph)])
      rw [← hlen] at this
      exact this p hp

theorem placedAll_sound (registryId? : Option Nat) {gs : List Graph} (hgs : ∀ g ∈ gs, g.Built)
    (before : List StoredGraph) :
    ∀ p ∈ placedAll registryId? before.length gs,
      p.SoundIn (before ++ placedAll registryId? before.length gs) := by
  cases gs with
  | nil => simp [placedAll]
  | cons g gs =>
    obtain ⟨hg, hgs⟩ := List.forall_mem_cons.1 hgs
    intro p hp
    rw [placedAll, ← List.append_assoc]
    rw [placedAll] at hp
    rcases List.mem_append.1 hp with hp | hp
    · exact (placed_sound registryId? hg before p hp).append _
    · have hlen : before.length + g.openings.length =
          (before ++ placed registryId? before.length g).length := by
        rw [List.length_append, length_placed]
      rw [hlen] at hp ⊢
      exact placedAll_sound registryId? hgs _ p hp

end

end Graph

/-! ### The promise -/

namespace GraphStore

theorem treeTo_succ {s : GraphStore} {depth : Nat} {id : GraphId} {b : Block} {gs : List Graph}
    (h : s.treeTo (depth + 1) id = some (.mk b gs)) :
    ∃ p, s.graphs[id]? = some p ∧ p.block = b ∧ p.subgraphs.mapM (s.treeTo depth) = some gs := by
  rw [treeTo] at h
  obtain ⟨p, hp, h⟩ := Option.bind_eq_some_iff.1 h
  obtain ⟨gs', hgs, h⟩ := Option.bind_eq_some_iff.1 h
  cases h
  exact ⟨p, hp, rfl, hgs⟩

theorem treeTo_block {s : GraphStore} {depth : Nat} {id : GraphId} {g : Graph}
    (h : s.treeTo depth id = some g) : ∃ p, s.graphs[id]? = some p ∧ p.block = g.block := by
  cases depth with
  | zero => cases h
  | succ depth =>
    cases g with
    | mk b gs =>
      obtain ⟨p, hp, hb, -⟩ := treeTo_succ h
      exact ⟨p, hp, hb⟩

/-- A change only depends on the block that is changed. -/
theorem modifyBlock_const {s : GraphStore} {g : GraphId} {p : StoredGraph}
    (hp : s.graphs[g]? = some p) (f : Block → Block) :
    s.modifyBlock g (fun _ => f p.block) = s.modifyBlock g f := by
  have hgraphs : s.graphs.modify g (fun q => { q with block := f p.block }) =
      s.graphs.modify g fun q => { q with block := f q.block } := by
    refine List.ext_getElem? fun i => ?_
    rw [List.getElem?_modify, List.getElem?_modify]
    by_cases hi : g = i
    · subst hi
      simp [hp]
    · simp [hi]
  rw [modifyBlock, modify, hgraphs]
  rfl

theorem modifyBlock_id (s : GraphStore) (g : GraphId) : s.modifyBlock g (fun b => b) = s := by
  have hid : (fun q : StoredGraph => { q with block := q.block }) = id := rfl
  rw [modifyBlock, hid, modify, List.modify_id]

theorem onBlock_eq {s : GraphStore} {g : GraphId} {p : StoredGraph} (hp : s.graphs[g]? = some p)
    (f : Block → Except Fault Unit × Block) :
    s.onBlock g f = ((f p.block).1, s.modifyBlock g fun _ => (f p.block).2) := by
  simp only [onBlock, hp]

/-- The references in a store are good. -/
structure Sound (s : GraphStore) : Prop where
  graph : ∀ p ∈ s.graphs, p.SoundIn s.graphs
  /-- No name is registered twice. -/
  distinct : ∀ r ∈ s.registries, r.keys.Nodup
  /-- What is registered under a name has that name. -/
  registered : ∀ r ∈ s.registries, ∀ e ∈ r.entries,
    ∃ p, s.graphs[e.2]? = some p ∧ p.block.name.render = e.1

namespace Sound

variable {s : GraphStore}

theorem empty : Sound GraphStore.empty := by constructor <;> simp [GraphStore.empty]

/-- New graphs may be put at the end. -/
theorem extend (hs : s.Sound) {new : List StoredGraph}
    (hnew : ∀ p ∈ new, p.SoundIn (s.graphs ++ new)) :
    Sound { s with graphs := s.graphs ++ new } := by
  refine ⟨fun p hp => ?_, hs.distinct, fun r hr e he => ?_⟩
  · rcases List.mem_append.1 hp with hp | hp
    · exact (hs.graph p hp).append new
    · exact hnew p hp
  · obtain ⟨p, hp, hn⟩ := hs.registered r hr e he
    obtain ⟨hlt, -⟩ := List.getElem?_eq_some_iff.1 hp
    exact ⟨p, by rw [List.getElem?_append_left hlt, hp], hn⟩

/-- A graph may be changed, as long as it keeps its name and its kind. -/
theorem modify (hs : s.Sound) {g : GraphId} {f : StoredGraph → StoredGraph}
    (hf : ∀ p, s.graphs[g]? = some p → (f p).SoundIn s.graphs ∧
      (f p).block.name = p.block.name ∧ (f p).block.kind = p.block.kind) :
    Sound (s.modify g f) := by
  -- every number still refers to a graph of the same name and kind
  have hget : ∀ (i : GraphId) (p : StoredGraph), s.graphs[i]? = some p →
      ∃ p' : StoredGraph, (s.modify g f).graphs[i]? = some p' ∧
        p'.block.name = p.block.name ∧ p'.block.kind = p.block.kind := by
    intro i p hp
    simp only [GraphStore.modify, List.getElem?_modify, hp]
    split_ifs with hi
    · subst hi
      exact ⟨f p, rfl, (hf p hp).2⟩
    · exact ⟨p, rfl, rfl, rfl⟩
  have hsound : ∀ p : StoredGraph, p.SoundIn s.graphs → p.SoundIn (s.modify g f).graphs := by
    intro p hp
    refine ⟨hp.block, fun c hc => ?_⟩
    obtain ⟨child, hchild, hk⟩ := hp.nested c hc
    obtain ⟨child', hchild', -, hk'⟩ := hget c child hchild
    exact ⟨child', hchild', hk'.symm ▸ hk⟩
  refine ⟨fun p hp => hsound p ?_, hs.distinct, fun r hr e he => ?_⟩
  · obtain ⟨i, hi⟩ := List.mem_iff_getElem?.1 hp
    simp only [GraphStore.modify, List.getElem?_modify] at hi
    split_ifs at hi with hgi
    · obtain ⟨p₀, hp₀, rfl⟩ := Option.map_eq_some_iff.1 hi
      exact (hf p₀ (hgi ▸ hp₀)).1
    · rw [id_map'] at hi
      exact hs.graph p (List.mem_iff_getElem?.2 ⟨i, hi⟩)
  · obtain ⟨p, hp, hn⟩ := hs.registered r hr e he
    obtain ⟨p', hp', hn', -⟩ := hget e.2 p hp
    exact ⟨p', hp', hn'.symm ▸ hn⟩

/-- What a graph declares may grow. -/
theorem modifyBlock (hs : s.Sound) {g : GraphId} {p : StoredGraph} {f : Block → Block}
    (hp : s.graphs[g]? = some p) (hb : Block.GrowsTo p.block (f p.block)) :
    Sound (s.modifyBlock g f) := by
  refine hs.modify fun q hq => ?_
  cases hp.symm.trans hq
  have hsound := hs.graph p (List.mem_iff_getElem?.2 ⟨g, hp⟩)
  exact ⟨⟨hsound.block.growsTo hb, hsound.nested⟩, hb.name_eq, hb.kind_eq⟩

/-- Graphs may be registered under their names, if these are new. -/
theorem register (hs : s.Sound) {r : Nat} {entries : List (String × GraphId)}
    (hkeys : (s.keysOf r ++ entries.map (·.1)).Nodup)
    (hreg : ∀ e ∈ entries, ∃ p, s.graphs[e.2]? = some p ∧ p.block.name.render = e.1) :
    Sound (s.register r entries) := by
  -- a registry is one from before, or the one that took the entries
  have hcases : ∀ q ∈ (s.register r entries).registries, q ∈ s.registries ∨
      ∃ q₀ ∈ s.registries, s.registries[r]? = some q₀ ∧ q = q₀.register entries := by
    intro q hq
    obtain ⟨i, hi⟩ := List.mem_iff_getElem?.1 hq
    simp only [GraphStore.register, List.getElem?_modify] at hi
    split_ifs at hi with hri
    · obtain ⟨q₀, hq₀, rfl⟩ := Option.map_eq_some_iff.1 hi
      exact .inr ⟨q₀, List.mem_iff_getElem?.2 ⟨i, hq₀⟩, hri ▸ hq₀, rfl⟩
    · rw [id_map'] at hi
      exact .inl (List.mem_iff_getElem?.2 ⟨i, hi⟩)
  refine ⟨hs.graph, fun q hq => ?_, fun q hq e he => ?_⟩
  · rcases hcases q hq with hq | ⟨q₀, -, hr, rfl⟩
    · exact hs.distinct q hq
    · simpa [keysOf, hr, Registry.keys, Registry.register] using hkeys
  · rcases hcases q hq with hq | ⟨q₀, hmem, -, rfl⟩
    · exact hs.registered q hq e he
    · rcases List.mem_append.1 he with he | he
      · exact hs.registered q₀ hmem e he
      · exact hreg e he

theorem keysOf_nodup (hs : s.Sound) (r : Nat) : (s.keysOf r).Nodup := by
  unfold keysOf
  cases hr : s.registries[r]? with
  | none => exact List.nodup_nil
  | some q => exact hs.distinct q (List.mem_iff_getElem?.2 ⟨r, hr⟩)

/-! ### Operations -/

theorem addRegistry (hs : s.Sound) : Sound s.addRegistry.2 := by
  refine ⟨hs.graph, fun r hr => ?_, fun r hr => ?_⟩
  · rcases List.mem_append.1 hr with hr | hr
    · exact hs.distinct r hr
    · rw [List.mem_singleton.1 hr]
      exact List.nodup_nil
  · rcases List.mem_append.1 hr with hr | hr
    · exact hs.registered r hr
    · rw [List.mem_singleton.1 hr]
      simp [Registry.empty]

theorem insert (hs : s.Sound) {b : Block} (hb : b.Reachable) (registryId? : Option Nat) :
    Sound (s.insert b registryId?).2 := by
  refine hs.extend fun p hp => ?_
  rw [List.mem_singleton.1 hp]
  exact ⟨hb, by simp⟩

theorem create (hs : s.Sound) (registryId? : Option Nat) (name : Name) (kind : GraphKind) :
    Sound (s.create registryId? name kind).2 := by
  unfold GraphStore.create
  cases registryId? with
  | none => exact hs.insert (.of_empty name kind) none
  | some r =>
    simp only
    split_ifs with htaken
    · exact hs
    · refine (hs.insert (.of_empty name kind) (some r)).register ?_ ?_
      · have hnot : name.render ∉ s.keysOf r := fun h => htaken (List.contains_iff_mem.2 h)
        exact List.concat_eq_append ▸ List.Nodup.concat hnot (hs.keysOf_nodup r)
      · intro e he
        rw [List.mem_singleton.1 he]
        exact ⟨⟨Block.empty name kind, some r, []⟩, by simp [GraphStore.insert], rfl⟩

theorem nest (hs : s.Sound) (parent child : GraphId) : Sound (s.nest parent child).2 := by
  unfold GraphStore.nest
  cases hc : s.graphs[child]? with
  | none => exact hs
  | some c =>
    simp only
    split_ifs with hk hself
    · exact hs
    · exact hs
    · refine hs.modify fun p hp => ⟨?_, rfl, rfl⟩
      have hsound := hs.graph p (List.mem_iff_getElem?.2 ⟨parent, hp⟩)
      refine ⟨hsound.block, fun i hi => ?_⟩
      rcases List.mem_append.1 hi with hi | hi
      · exact hsound.nested i hi
      · rw [List.mem_singleton.1 hi]
        exact ⟨c, hc, by simpa using hk⟩

theorem createSubgraph (hs : s.Sound) (parent : GraphId) (name : Name) (cluster : Bool) :
    Sound (s.createSubgraph parent name cluster).2 := by
  unfold GraphStore.createSubgraph
  cases s.graphs[parent]? with
  | none => exact hs
  | some p =>
    have hcreate := hs.create p.registryId? name
      (if cluster then .clusterSubgraph else .subgraph)
    simp only
    split
    · rename_i f s' heq
      rwa [heq] at hcreate
    · rename_i g s' heq
      rw [heq] at hcreate
      have hnest := hcreate.nest parent g
      split <;> rename_i heq' <;> rwa [heq'] at hnest

theorem onBlock (hs : s.Sound) (g : GraphId) {f : Block → Except Fault Unit × Block}
    (hf : ∀ b, Block.GrowsTo b (f b).2) : Sound (s.onBlock g f).2 := by
  unfold GraphStore.onBlock
  cases hp : s.graphs[g]? with
  | none => exact hs
  | some p => exact hs.modifyBlock (f := fun _ => (f p.block).2) hp (hf p.block)

theorem addNode (hs : s.Sound) (g : GraphId) (name : Name) : Sound (s.addNode g name).2 :=
  hs.onBlock g fun b => b.addNode_grows name

theorem addEdge (hs : s.Sound) (g : GraphId) (tail head : EdgeEnd) :
    Sound (s.addEdge g tail head).2 :=
  hs.onBlock g fun b => b.addEdge_grows tail head

theorem addAttribute (hs : s.Sound) (g : GraphId) (site : TableSite) (attr : AttributeId)
    (d : Datum) : Sound (s.addAttribute g site attr d).2 :=
  hs.onBlock g fun b => b.addAttribute_grows site attr d

theorem registerOpened (hs : s.Sound) {registryId? : Option Nat} {first : GraphId}
    {opened : List Opened} (hfresh : Fresh (registryId?.map s.keysOf) opened)
    (hopened : ∀ i o, opened[i]? = some o →
      ∃ p, s.graphs[first + i]? = some p ∧ p.block.name = o.1) :
    Sound (s.registerOpened registryId? first opened) := by
  unfold GraphStore.registerOpened
  cases registryId? with
  | none => exact hs
  | some r =>
    refine hs.register ?_ ?_
    · have hfst : (opened.zipIdx.map fun p => (p.1.1.render, first + p.2)).map Prod.fst =
          opened.map fun o => o.1.render := by
        have hcomp : (Prod.fst ∘ fun p : Opened × Nat => (p.1.1.render, first + p.2)) =
            (fun o : Opened => o.1.render) ∘ Prod.fst := rfl
        rw [List.map_map, hcomp, ← List.map_map, List.zipIdx_map_fst]
      have hnodup := hfresh _ rfl
      rw [← hfst] at hnodup
      exact hnodup
    · intro e he
      obtain ⟨⟨o, i⟩, hmem, rfl⟩ := List.mem_map.1 he
      obtain ⟨p, hp, hn⟩ := hopened i o (List.mk_mem_zipIdx_iff_getElem?.1 hmem)
      exact ⟨p, hp, by rw [hn]⟩

/-- **A description that is loaded keeps the promise**, also if it is at fault somewhere. -/
theorem load (hs : s.Sound) (registryId? : Option Nat) (r : Raw) :
    Sound (s.load registryId? r).2 := by
  have htaken : ∀ taken, registryId?.map s.keysOf = some taken → taken.Nodup := by
    intro taken h
    obtain ⟨r, -, rfl⟩ := Option.map_eq_some_iff.1 h
    exact hs.keysOf_nodup r
  obtain ⟨hfresh, hbuilt, hopened⟩ := describe_spec _ r htaken
  unfold GraphStore.load
  simp only [adoptAll_eq]
  refine (hs.extend (Graph.placedAll_sound registryId? hbuilt s.graphs)).registerOpened hfresh ?_
  intro i o ho
  rw [hopened, ← Graph.placedAll_openings registryId? s.graphs.length, List.getElem?_map] at ho
  obtain ⟨p, hp, rfl⟩ := Option.map_eq_some_iff.1 ho
  refine ⟨p, ?_, rfl⟩
  rw [List.getElem?_append_right (Nat.le_add_right _ _), Nat.add_sub_cancel_left, hp]

/-- **The trees of a sound store are built.** -/
theorem built (hs : s.Sound) {depth : Nat} {id : GraphId} {g : Graph}
    (h : s.treeTo depth id = some g) : g.Built := by
  induction depth generalizing id g with
  | zero => cases h
  | succ depth ih =>
    cases g with
    | mk b gs =>
      obtain ⟨p, hp, rfl, hmap⟩ := treeTo_succ h
      have hsound := hs.graph p (List.mem_iff_getElem?.2 ⟨id, hp⟩)
      -- a nested tree is the tree of a number that the graph refers to
      refine .mk hsound.block (fun g hg => ?_) fun g hg => ?_
      · obtain ⟨c, hc, htree⟩ := Outcome.exists_of_mem_mapM hmap hg
        obtain ⟨child, hchild, hk⟩ := hsound.nested c hc
        obtain ⟨q, hq, hblock⟩ := treeTo_block htree
        cases hchild.symm.trans hq
        exact hblock ▸ hk
      · obtain ⟨c, -, htree⟩ := Outcome.exists_of_mem_mapM hmap hg
        exact ih htree

end Sound

/-! ### Loading -/

/-- In a store a tree starts with its own graph, which refers to those that come next. -/
theorem placed_split {registryId? : Option Nat} {graphs before after : List StoredGraph} {b : Block}
    {gs : List Graph}
    (h : graphs = before ++ ((Graph.mk b gs).placed registryId? before.length ++ after)) :
    ∃ root : StoredGraph, graphs[before.length]? = some root ∧ root.block = b ∧
      root.subgraphs = Graph.roots (before ++ [root]).length gs ∧
      graphs = (before ++ [root]) ++
        (Graph.placedAll registryId? (before ++ [root]).length gs ++ after) := by
  refine ⟨⟨b, registryId?, Graph.roots (before.length + 1) gs⟩, ?_, rfl, ?_, ?_⟩ <;>
    simp [h, Graph.placed]

/-- In a store several trees start with the first one, and the others come next. -/
theorem placedAll_split {registryId? : Option Nat} {graphs before after : List StoredGraph}
    {g : Graph} {gs : List Graph}
    (h : graphs = before ++ (Graph.placedAll registryId? before.length (g :: gs) ++ after)) :
    (∃ after', graphs = before ++ (g.placed registryId? before.length ++ after')) ∧
      Graph.roots before.length (g :: gs) = before.length ::
        Graph.roots (before ++ g.placed registryId? before.length).length gs ∧
      graphs = (before ++ g.placed registryId? before.length) ++
        (Graph.placedAll registryId? (before ++ g.placed registryId? before.length).length gs ++
          after) := by
  have hlen : (before ++ g.placed registryId? before.length).length =
      before.length + g.openings.length := by
    rw [List.length_append, Graph.length_placed]
  rw [Graph.placedAll, ← hlen, List.append_assoc] at h
  rw [Graph.roots, ← hlen]
  exact ⟨⟨_, h⟩, rfl, by rw [h, ← List.append_assoc]⟩

mutual

/-- A tree that was put into a store is found there again. -/
theorem treeTo_placed (registryId? : Option Nat) {s : GraphStore} (g : Graph)
    {before after : List StoredGraph}
    (hs : s.graphs = before ++ (g.placed registryId? before.length ++ after)) {depth : Nat}
    (hdepth : g.openings.length ≤ depth) : s.treeTo depth before.length = some g := by
  cases g with
  | mk b gs =>
    rw [Graph.openings, List.length_cons] at hdepth
    obtain ⟨depth, rfl⟩ : ∃ d, depth = d + 1 := ⟨depth - 1, by omega⟩
    obtain ⟨root, hfind, rfl, hroots, hsplit⟩ := placed_split hs
    have hnested := mapM_treeTo_placedAll registryId? gs hsplit (Nat.le_of_succ_le_succ hdepth)
    rw [← hroots] at hnested
    rw [treeTo, hfind]
    simp [hnested]

theorem mapM_treeTo_placedAll (registryId? : Option Nat) {s : GraphStore} (gs : List Graph)
    {before after : List StoredGraph}
    (hs : s.graphs = before ++ (Graph.placedAll registryId? before.length gs ++ after))
    {depth : Nat} (hdepth : (Graph.openingsAll gs).length ≤ depth) :
    (Graph.roots before.length gs).mapM (s.treeTo depth) = some gs := by
  cases gs with
  | nil => rfl
  | cons g gs =>
    rw [Graph.openingsAll, List.length_append] at hdepth
    obtain ⟨⟨after', hfirst⟩, hroots, hrest⟩ := placedAll_split hs
    have hhead := treeTo_placed registryId? g hfirst (Nat.le_of_add_right_le hdepth)
    have htail := mapM_treeTo_placedAll registryId? gs hrest (Nat.le_of_add_left_le hdepth)
    rw [hroots, List.mapM_cons, hhead, htail]
    rfl

end

theorem registerOpened_graphs (s : GraphStore) (registryId? : Option Nat) (first : GraphId)
    (opened : List Opened) : (s.registerOpened registryId? first opened).graphs = s.graphs := by
  cases registryId? <;> rfl

/-- A graph that was described gets the next number. -/
theorem load_eq_ok {s : GraphStore} {registryId? : Option Nat} {r : Raw} {id : GraphId} :
    (s.load registryId? r).1 = .ok id ↔
      (∃ g, (describe (registryId?.map s.keysOf) r).1 = .ok g) ∧ id = s.graphs.length := by
  unfold load
  simp only
  rcases (describe (registryId?.map s.keysOf) r).1 with f | g
  · simp [Except.map]
  · simp [Except.map, eq_comm]

/-- The graphs of what was built of a description are put at the end of the store. -/
theorem load_graphs (s : GraphStore) (registryId? : Option Nat) (r : Raw) {g : Graph}
    (hg : (describe (registryId?.map s.keysOf) r).2.built = [g]) :
    (s.load registryId? r).2.graphs = s.graphs ++ g.placed registryId? s.graphs.length := by
  simp only [load, registerOpened_graphs, adoptAll_eq, hg, Graph.placedAll, List.append_nil]

/-- **What was built of a description is found in the store under the next number**, also if the
description is at fault somewhere. -/
theorem tree?_load (s : GraphStore) (registryId? : Option Nat) (r : Raw) {g : Graph}
    (hg : (describe (registryId?.map s.keysOf) r).2.built = [g]) :
    (s.load registryId? r).2.tree? s.graphs.length = some g := by
  have hgraphs := load_graphs s registryId? r hg
  rw [← List.append_nil (g.placed registryId? s.graphs.length)] at hgraphs
  refine treeTo_placed registryId? g hgraphs ?_
  rw [hgraphs, List.append_nil, List.length_append, Graph.length_placed]
  exact Nat.le_add_left _ _

/-- **A description that is loaded is found in the store as the tree that was described.** -/
theorem load_tree {s : GraphStore} {registryId? : Option Nat} {r : Raw} {id : GraphId}
    (h : (s.load registryId? r).1 = .ok id) :
    ∃ g, (describe (registryId?.map s.keysOf) r).1 = .ok g ∧
      (s.load registryId? r).2.tree? id = some g := by
  obtain ⟨⟨g, hg⟩, rfl⟩ := load_eq_ok.1 h
  exact ⟨g, hg, tree?_load s registryId? r (built_of_describe hg)⟩

end GraphStore

end DotWriter
