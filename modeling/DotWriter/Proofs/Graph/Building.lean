import DotWriter.Proofs.Graph.Described
import DotWriter.Proofs.Graph.NodeIdentity
import DotWriter.Proofs.Graph.Registry

/-!
# What the calls that build a graph do

A call that builds a graph succeeds, or it is refused.  Most calls change nothing when they are
refused; an edge whose head is no name leaves its tail behind.

* `GraphStore.answer` : what a call answers, next to the store that it leaves;
* `Block.declare` : a block declares the names that are missing, in order, and each of them once;
* `Block.addEdge_eq` : the three ways of a call that adds an edge;
* `GraphStore.Extends` : whatever is called, graphs keep their nodes, in order and by name;
* `GraphStore.BuildingLaws` : what a graph promises to those who build it;
* `run_buildingLaws` : **every graph of every store keeps these promises**.
-/

namespace DotWriter

/-! ### Ends of edges -/

namespace EdgeEnd

/-- The name that is given as an end. -/
def name? : EdgeEnd → Option Name
  | named d => (Name.of d).toOption
  | node _ => none

/-- The written name of an end, if it is a node or a name. -/
def key? : EdgeEnd → Option String
  | named d => (Name.of d).toOption.map Name.render
  | node name => some name.render

end EdgeEnd

namespace Block

variable {b b' : Block}

/-- Declares the names that are missing, each where it is mentioned first. -/
def declare (b : Block) (names : List Name) : Block :=
  { b with nodes := b.nodes ++ (firstMentions b.keys names).map Node.ofName }

theorem declare_edges (b : Block) (names : List Name) : (b.declare names).edges = b.edges := rfl

theorem declare_nil (b : Block) : b.declare [] = b := by
  simp [declare, firstMentions]

theorem declare_missing {name : Name} (h : name.render ∉ b.keys) :
    b.declare [name] = { b with nodes := b.nodes ++ [Node.ofName name] } := by
  simp [declare, firstMentions, h]

theorem declare_present {name : Name} (h : name.render ∈ b.keys) : b.declare [name] = b := by
  simp [declare, firstMentions, h]

theorem declare_declare (b : Block) (names more : List Name) :
    (b.declare names).declare more = b.declare (names ++ more) := by
  have hkeys : (b.declare names).keys = b.keys ++ (firstMentions b.keys names).map Name.render := by
    rw [declare, keys_append, List.map_map]
    rfl
  simp only [declare] at hkeys ⊢
  rw [hkeys, firstMentions_append, List.map_append, List.append_assoc]

/-- An end is found by its written name, after it was declared if it is a name. -/
theorem reachEnd_eq_ok {e : EdgeEnd} {key : String} (h : e.key? = some key) :
    b.reachEnd e = .ok (key, b.declare e.name?.toList) := by
  cases e with
  | node k =>
    cases h
    rw [EdgeEnd.name?, Option.toList_none, declare_nil]
    rfl
  | named d =>
    obtain ⟨name, hname, rfl⟩ := Option.map_eq_some_iff.1 h
    rw [EdgeEnd.name?, hname, Option.toList_some, declare, ← ensureNode_eq, reachEnd,
      Outcome.toOption_eq_some.1 hname]
    rfl

theorem reachEnd_eq_error {e : EdgeEnd} (h : e.key? = none) : ∃ f, b.reachEnd e = .error f := by
  cases e with
  | node k => cases h
  | named d =>
    have hname : (Name.of d).toOption = none := Option.map_eq_none_iff.1 h
    cases hd : Name.of d with
    | ok name =>
      rw [hd] at hname
      cases hname
    | error f => exact ⟨f, by rw [reachEnd, hd]; rfl⟩

/-- An edge is added after its ends were declared; a tail that is no name changes nothing, and a
head that is none leaves the tail. -/
theorem addEdge_eq (b : Block) (tail head : EdgeEnd) :
    (∃ tailKey headKey, tail.key? = some tailKey ∧ head.key? = some headKey ∧
      b.addEdge tail head = (.ok (), { b.declare ([tail, head].filterMap EdgeEnd.name?) with
        edges := b.edges ++ [Edge.between tailKey headKey] })) ∨
    (tail.key? = none ∧ ∃ f, b.addEdge tail head = (.error f, b)) ∨
    (head.key? = none ∧ ∃ f, b.addEdge tail head = (.error f, b.declare tail.name?.toList)) := by
  cases htail : tail.key? with
  | none =>
    obtain ⟨f, hf⟩ := reachEnd_eq_error (b := b) htail
    exact .inr (.inl ⟨rfl, f, by rw [addEdge, hf]⟩)
  | some tailKey =>
    have hreach := reachEnd_eq_ok (b := b) htail
    cases hhead : head.key? with
    | none =>
      obtain ⟨f, hf⟩ := reachEnd_eq_error (b := b.declare tail.name?.toList) hhead
      exact .inr (.inr ⟨rfl, f, by simp only [addEdge, hreach, hf]⟩)
    | some headKey =>
      have hends : [tail, head].filterMap EdgeEnd.name? =
          tail.name?.toList ++ head.name?.toList := by
        cases htail : tail.name? <;> cases hhead : head.name? <;> simp [htail, hhead]
      refine .inl ⟨tailKey, headKey, rfl, rfl, ?_⟩
      simp only [addEdge, hreach, reachEnd_eq_ok hhead, declare_declare, hends, declare_edges]

/-! ### What growing keeps -/

theorem setTable_names (b : Block) (t : Table) (site : TableSite) :
    (b.setTable t site).nodes.map Node.name = b.nodes.map Node.name := by
  rcases site with (_ | _ | _) | key | _
  case node =>
    simp only [setTable, modifyNode, List.map_map]
    refine List.map_congr_left fun n _ => ?_
    simp only [Function.comp_apply]
    split_ifs <;> rfl
  all_goals rfl

theorem GrowsTo.names_prefix (h : GrowsTo b b') :
    b.nodes.map Node.name <+: b'.nodes.map Node.name := by
  induction h with
  | refl => exact List.prefix_rfl
  | tail _ hstep ih =>
    refine ih.trans ?_
    cases hstep with
    | node _ =>
      rw [List.map_append]
      exact List.prefix_append _ _
    | edge _ _ => exact List.prefix_rfl
    | write _ _ _ => exact (setTable_names _ _ _).symm ▸ List.prefix_rfl

theorem keys_eq (b : Block) : b.keys = (b.nodes.map Node.name).map Name.render := by
  rw [keys, List.map_map]
  rfl

theorem GrowsTo.keys_prefix (h : GrowsTo b b') : b.keys <+: b'.keys := by
  rw [keys_eq, keys_eq]
  exact h.names_prefix.map _

theorem map_name_find? (b : Block) (key : String) :
    (b.find? key).map Node.name =
      (b.nodes.map Node.name).find? fun name => name.render == key := by
  rw [List.find?_map]
  rfl

/-- A node that was found is found again. -/
theorem GrowsTo.find?_name (h : GrowsTo b b') {key : String} {n : Node}
    (hn : b.find? key = some n) : ∃ n', b'.find? key = some n' ∧ n'.name = n.name := by
  obtain ⟨more, hmore⟩ := h.names_prefix
  have hname := b.map_name_find? key
  have hname' := b'.map_name_find? key
  rw [hn, Option.map_some] at hname
  rw [← hmore, List.find?_append, ← hname, Option.some_or] at hname'
  exact Option.map_eq_some_iff.1 hname'

/-- A node is found by its key, and by nothing else. -/
theorem find?_eq_some_iff (h : b.keys.Nodup) {key : String} {n : Node} :
    b.find? key = some n ↔ n ∈ b.nodes ∧ n.key = key := by
  constructor
  · intro hn
    exact ⟨List.mem_of_find?_eq_some hn, by simpa using List.find?_some hn⟩
  · rintro ⟨hmem, rfl⟩
    obtain ⟨m, hm⟩ : ∃ m, b.find? n.key = some m := by
      rw [← Option.isSome_iff_exists, find?, List.find?_isSome]
      exact ⟨n, hmem, beq_self_eq_true _⟩
    have hkey : m.key = n.key := by simpa using List.find?_some hm
    rw [hm, List.inj_on_of_nodup_map h (List.mem_of_find?_eq_some hm) hmem hkey]

theorem find?_eq_none_iff {key : String} : b.find? key = none ↔ key ∉ b.keys := by
  simp [find?, keys]

end Block

/-- A datum that is no name is not taken for a duplicate. -/
theorem Name.of_failsOnly (d : Datum) :
    Outcome.FailsOnly (fun f => f.family ≠ .duplicate) (Name.of d) := by
  unfold Name.of
  split
  · refine Outcome.FailsOnly.map ?_ _
    unfold Id.of
    split_ifs
    · exact .ok _
    · refine .error ?_
      unfold Id.faultOf
      split
      · decide
      · split_ifs
        · rintro ⟨⟩
        · rintro ⟨⟩
  · exact .ok _
  · exact .ok _
  · exact .ok _
  · exact .ok _
  · exact .ok _
  · refine .error ?_
    rintro ⟨⟩

namespace GraphStore

variable {s s' s'' : GraphStore}

/-! ### Calls keep graphs -/

/-- Every graph stays, may declare more, and may have more graphs nested in it. -/
def Extends (s s' : GraphStore) : Prop :=
  ∀ (id : GraphId) (p : StoredGraph), s.graphs[id]? = some p →
    ∃ p' : StoredGraph, s'.graphs[id]? = some p' ∧ p.block.GrowsTo p'.block ∧
      p.subgraphs <+: p'.subgraphs

namespace Extends

theorem refl (s : GraphStore) : Extends s s := fun _ p hp => ⟨p, hp, .refl, List.prefix_rfl⟩

theorem trans (h : Extends s s') (h' : Extends s' s'') : Extends s s'' := by
  intro id p hp
  obtain ⟨p', hp', hblock, hsubgraphs⟩ := h id p hp
  obtain ⟨p'', hp'', hblock', hsubgraphs'⟩ := h' id p' hp'
  exact ⟨p'', hp'', hblock.trans hblock', hsubgraphs.trans hsubgraphs'⟩

theorem append {new : List StoredGraph} (h : s'.graphs = s.graphs ++ new) : Extends s s' := by
  intro id p hp
  refine ⟨p, ?_, .refl, List.prefix_rfl⟩
  rw [h, List.getElem?_append_left (List.getElem?_eq_some_iff.1 hp).1, hp]

theorem modify {g : GraphId} {f : StoredGraph → StoredGraph}
    (hf : ∀ p, s.graphs[g]? = some p →
      p.block.GrowsTo (f p).block ∧ p.subgraphs <+: (f p).subgraphs) :
    Extends s (s.modify g f) := by
  intro id p hp
  simp only [GraphStore.modify, List.getElem?_modify, hp]
  split_ifs with hid
  · subst hid
    exact ⟨f p, rfl, hf p hp⟩
  · exact ⟨p, rfl, .refl, List.prefix_rfl⟩

theorem modifyBlock {g : GraphId} {p : StoredGraph} {f : Block → Block}
    (hp : s.graphs[g]? = some p) (hf : p.block.GrowsTo (f p.block)) :
    Extends s (s.modifyBlock g f) := by
  refine modify fun q hq => ?_
  cases hp.symm.trans hq
  exact ⟨hf, List.prefix_rfl⟩

end Extends

theorem create_extends (s : GraphStore) (registryId? : Option Nat) (name : Name)
    (kind : GraphKind) : Extends s (s.create registryId? name kind).2 := by
  rcases taken_or_free s registryId? name with ⟨r, rfl, htaken⟩ | hfree
  · rw [create_taken htaken]
    exact .refl s
  · rw [create_free hfree]
    exact .append (registerOpened_graphs _ _ _ _)

theorem nest_extends (s : GraphStore) (parent child : GraphId) :
    Extends s (s.nest parent child).2 := by
  unfold nest
  split
  · exact .refl s
  · split_ifs
    · exact .refl s
    · exact .refl s
    · exact .modify fun p _ => ⟨.refl, List.prefix_append _ _⟩

theorem createSubgraph_extends (s : GraphStore) (parent : GraphId) (name : Name) (cluster : Bool) :
    Extends s (s.createSubgraph parent name cluster).2 := by
  cases hp : s.graphs[parent]? with
  | none =>
    unfold createSubgraph
    simp only [hp]
    exact .refl s
  | some p =>
    rcases taken_or_free s p.registryId? name with ⟨r, hr, htaken⟩ | hfree
    · rw [createSubgraph_taken hp hr htaken]
      exact .refl s
    · rw [createSubgraph_free hp hfree]
      exact (create_extends s _ _ _).trans (.modify fun q _ => ⟨.refl, List.prefix_append _ _⟩)

theorem onBlock_extends (s : GraphStore) (g : GraphId) {f : Block → Except Fault Unit × Block}
    (hf : ∀ b, Block.GrowsTo b (f b).2) : Extends s (s.onBlock g f).2 := by
  cases hp : s.graphs[g]? with
  | none =>
    simp only [onBlock, hp]
    exact .refl s
  | some p =>
    rw [onBlock_eq hp]
    exact .modifyBlock hp (hf p.block)

theorem load_extends (s : GraphStore) (registryId? : Option Nat) (r : Raw) :
    Extends s (s.load registryId? r).2 := by
  simp only [load, adoptAll_eq]
  exact .append (registerOpened_graphs _ _ _ _)

theorem named_extends {α : Type} (s : GraphStore) (d : Datum)
    {f : Name → Except Fault α × GraphStore} (hf : ∀ name, Extends s (f name).2) :
    Extends s (s.named d f) := by
  unfold named
  split
  · exact hf _
  · exact .refl s

/-- Every call extends a store, whether it is refused or not. -/
theorem after_extends (s : GraphStore) (call : Call) : Extends s (s.after call) := by
  cases call with
  | addRegistry => exact .refl s
  | create registryId? d kind => exact s.named_extends d fun _ => s.create_extends _ _ _
  | createSubgraph parent d cluster =>
    exact s.named_extends d fun _ => s.createSubgraph_extends _ _ _
  | nest parent child => exact s.nest_extends parent child
  | addNode g d =>
    exact s.named_extends d fun name => s.onBlock_extends g fun b => b.addNode_grows name
  | addEdge g tail head => exact s.onBlock_extends g fun b => b.addEdge_grows tail head
  | addAttribute g site attr d =>
    exact s.onBlock_extends g fun b => b.addAttribute_grows site attr d
  | load registryId? r => exact s.load_extends registryId? r

/-- So does a sequence of calls. -/
theorem foldl_extends (s : GraphStore) (calls : List Call) : Extends s (calls.foldl after s) := by
  induction calls generalizing s with
  | nil => exact .refl s
  | cons call calls ih => exact (s.after_extends call).trans (ih _)

/-! ### Answers -/

/-- What a call answers: nothing, or why it is refused. -/
def answer (s : GraphStore) : Call → Except Fault Unit
  | .addRegistry => .ok ()
  | .create registryId? d kind => do
    let name ← Name.of d
    let _ ← (s.create registryId? name kind).1
  | .createSubgraph parent d cluster => do
    let name ← Name.of d
    let _ ← (s.createSubgraph parent name cluster).1
  | .nest parent child => (s.nest parent child).1
  | .addNode g d => do
    let name ← Name.of d
    (s.addNode g name).1
  | .addEdge g tail head => (s.addEdge g tail head).1
  | .addAttribute g site attr d => (s.addAttribute g site attr d).1
  | .load registryId? r => do
    let _ ← (s.load registryId? r).1

theorem modifyBlock_getElem? {g : GraphId} {p : StoredGraph} (hp : s.graphs[g]? = some p)
    (f : Block → Block) :
    (s.modifyBlock g f).graphs[g]? = some { p with block := f p.block } := by
  simp [modifyBlock, modify, hp]

/-- A node is refused exactly if its written name is taken, and put at the end otherwise. -/
theorem addNode_eq {g : GraphId} {p : StoredGraph} (hp : s.graphs[g]? = some p) (name : Name) :
    s.addNode g name = if name.render ∈ p.block.keys
      then (.error (.duplicateNode name.render p.block.name.render), s)
      else (.ok (), s.modifyBlock g fun b => { b with nodes := b.nodes ++ [Node.ofName name] }) := by
  rw [addNode, onBlock_eq hp, Block.addNode]
  simp only [List.contains_iff_mem]
  split_ifs
  · rw [modifyBlock_const hp fun b => b, modifyBlock_id]
  · exact congrArg (Prod.mk _)
      (modifyBlock_const hp fun b => { b with nodes := b.nodes ++ [Node.ofName name] })

/-- A graph is nested at the end, unless it is of another kind or the same graph. -/
theorem nest_cases (s : GraphStore) (parent child : GraphId) :
    ((∃ c, s.graphs[child]? = some c ∧ c.block.kind.isSubgraph = true) ∧ parent ≠ child ∧
      s.nest parent child =
        (.ok (), s.modify parent fun g => { g with subgraphs := g.subgraphs ++ [child] })) ∨
    ∃ f, s.nest parent child = (.error f, s) := by
  unfold nest
  cases hc : s.graphs[child]? with
  | none => exact .inr ⟨_, rfl⟩
  | some c =>
    by_cases hkind : c.block.kind.isSubgraph = true
    · by_cases hself : parent = child
      · exact .inr ⟨.selfNesting, by simp [hkind, hself]⟩
      · exact .inl ⟨⟨c, rfl, hkind⟩, hself, by simp [hkind, hself]⟩
    · exact .inr ⟨_, by simp only [hkind]; rfl⟩

/-! ### Laws -/

/-- What a graph promises to those who build it. -/
structure BuildingLaws (s : GraphStore) (g : GraphId) (p : StoredGraph) : Prop where
  /-- No two nodes have one key. -/
  distinct : p.block.keys.Nodup
  /-- A key finds the node that has it. -/
  found_iff : ∀ key n, p.block.find? key = some n ↔ n ∈ p.block.nodes ∧ n.key = key
  /-- It finds nothing exactly if no node has it. -/
  missing_iff : ∀ key, p.block.find? key = none ↔ key ∉ p.block.keys
  /-- What is nested in the graph may be nested. -/
  nested : ∀ c ∈ p.subgraphs, ∃ child, s.graphs[c]? = some child ∧
    child.block.kind.isSubgraph = true
  /-- Whatever is called, keys stay in their order, and each finds the node that it found. -/
  kept : ∀ calls : List Call, ∃ p', (calls.foldl after s).graphs[g]? = some p' ∧
    p.block.keys <+: p'.block.keys ∧
    ∀ key n, p.block.find? key = some n → ∃ n', p'.block.find? key = some n' ∧ n'.name = n.name
  /-- A node is refused as a duplicate exactly if its written name is there. -/
  addNode_duplicate_iff : ∀ d,
    (∃ f, s.answer (.addNode g d) = .error f ∧ f.family = .duplicate) ↔
      ∃ name, Name.of d = .ok name ∧ name.render ∈ p.block.keys
  /-- Any other node is put at the end, where its name finds it. -/
  addNode_new : ∀ d name, Name.of d = .ok name → name.render ∉ p.block.keys →
    s.answer (.addNode g d) = .ok () ∧ ∃ p', (s.after (.addNode g d)).graphs[g]? = some p' ∧
      p'.block = { p.block with nodes := p.block.nodes ++ [Node.ofName name] } ∧
      p'.block.find? name.render = some (Node.ofName name)
  /-- A graph that is nested is put at the end of those that are. -/
  nest_ok : ∀ child, s.answer (.nest g child) = .ok () →
    s.after (.nest g child) = s.modify g fun q => { q with subgraphs := q.subgraphs ++ [child] }
  /-- So is one that is made to be nested. -/
  createSubgraph_ok : ∀ d cluster, s.answer (.createSubgraph g d cluster) = .ok () →
    (s.after (.createSubgraph g d cluster)).graphs[g]? =
      some { p with subgraphs := p.subgraphs ++ [s.graphs.length] }
  /-- Calls for nodes and subgraphs change nothing if they are refused. -/
  refused : ∀ d child cluster,
    ∀ call ∈ [Call.addNode g d, .nest g child, .createSubgraph g d cluster],
      ∀ f, s.answer call = .error f → s.after call = s
  /-- An edge is refused exactly if one of its ends is neither a node nor a name. -/
  addEdge_ok_iff : ∀ tail head, s.answer (.addEdge g tail head) = .ok () ↔
    tail.key? ≠ none ∧ head.key? ≠ none
  /-- It is put at the end, and its ends that are missing are declared: the names that no key is
  written like, tail first, and a name that is given twice only once. -/
  addEdge_ok : ∀ tail head, s.answer (.addEdge g tail head) = .ok () →
    ∃ tailKey headKey, tail.key? = some tailKey ∧ head.key? = some headKey ∧
      s.after (.addEdge g tail head) = s.modifyBlock g fun b => { b with
        nodes := b.nodes ++
          (firstMentions b.keys ([tail, head].filterMap EdgeEnd.name?)).map Node.ofName
        edges := b.edges ++ [Edge.between tailKey headKey] }
  /-- A refused edge leaves at most its tail, if that is a missing name and the head is none. -/
  addEdge_error : ∀ tail head f, s.answer (.addEdge g tail head) = .error f →
    s.after (.addEdge g tail head) = s ∨
    ∃ name, tail.name? = some name ∧ name.render ∉ p.block.keys ∧ head.key? = none ∧
      s.after (.addEdge g tail head) = s.modifyBlock g fun b =>
        { b with nodes := b.nodes ++ [Node.ofName name] }

section laws

variable {g : GraphId} {p : StoredGraph}

/-- A call for a node is refused because of the datum or because of the name, and changes nothing
then; or the node is put at the end. -/
theorem addNode_cases (hp : s.graphs[g]? = some p) (d : Datum) :
    (∃ f, Name.of d = .error f ∧ s.answer (.addNode g d) = .error f ∧
      s.after (.addNode g d) = s) ∨
    (∃ name f, Name.of d = .ok name ∧ name.render ∈ p.block.keys ∧ f.family = .duplicate ∧
      s.answer (.addNode g d) = .error f ∧ s.after (.addNode g d) = s) ∨
    ∃ name, Name.of d = .ok name ∧ name.render ∉ p.block.keys ∧ s.answer (.addNode g d) = .ok () ∧
      s.after (.addNode g d) = s.modifyBlock g fun b =>
        { b with nodes := b.nodes ++ [Node.ofName name] } := by
  cases hd : Name.of d with
  | error f =>
    refine .inl ⟨f, rfl, ?_, ?_⟩
    · rw [answer, hd]
      rfl
    · rw [after, named, hd]
  | ok name =>
    have hanswer : s.answer (.addNode g d) = (s.addNode g name).1 := by
      rw [answer, hd]
      rfl
    have hafter : s.after (.addNode g d) = (s.addNode g name).2 := by
      rw [after, named, hd]
    rw [hanswer, hafter, addNode_eq hp]
    by_cases hkey : name.render ∈ p.block.keys
    · rw [if_pos hkey]
      exact .inr (.inl ⟨name, _, rfl, hkey, rfl, rfl, rfl⟩)
    · rw [if_neg hkey]
      exact .inr (.inr ⟨name, rfl, hkey, rfl, rfl⟩)

/-- A call for a new subgraph is refused, and changes nothing then; or the graph is put at the end
of those that are nested. -/
theorem createSubgraph_cases (hp : s.graphs[g]? = some p) (d : Datum) (cluster : Bool) :
    (∃ f, s.answer (.createSubgraph g d cluster) = .error f ∧
      s.after (.createSubgraph g d cluster) = s) ∨
    (s.answer (.createSubgraph g d cluster) = .ok () ∧
      (s.after (.createSubgraph g d cluster)).graphs[g]? =
        some { p with subgraphs := p.subgraphs ++ [s.graphs.length] }) := by
  cases hd : Name.of d with
  | error f =>
    refine .inl ⟨f, ?_, ?_⟩
    · rw [answer, hd]
      rfl
    · rw [after, named, hd]
  | ok name =>
    have hanswer : s.answer (.createSubgraph g d cluster) =
        (fun _ => ()) <$> (s.createSubgraph g name cluster).1 := by
      rw [answer, hd]
      rfl
    have hafter : s.after (.createSubgraph g d cluster) = (s.createSubgraph g name cluster).2 := by
      rw [after, named, hd]
    rw [hanswer, hafter]
    rcases taken_or_free s p.registryId? name with ⟨r, hr, htaken⟩ | hfree
    · rw [createSubgraph_taken hp hr htaken]
      exact .inl ⟨_, rfl, rfl⟩
    · refine .inr ⟨by rw [createSubgraph_free hp hfree]; rfl, ?_⟩
      obtain ⟨hlt, -⟩ := List.getElem?_eq_some_iff.1 hp
      simp only [createSubgraph_free hp hfree, create_free hfree, modify, registerOpened_graphs,
        List.getElem?_modify, List.getElem?_append_left hlt, hp]
      simp

/-- An edge is put at the end and its missing ends are declared; or the call is refused and changes
nothing; or it is refused for its head and leaves its tail. -/
theorem addEdge_cases (hp : s.graphs[g]? = some p) (tail head : EdgeEnd) :
    (∃ tailKey headKey, tail.key? = some tailKey ∧ head.key? = some headKey ∧
      s.addEdge g tail head = (.ok (), s.modifyBlock g fun b =>
        { b.declare ([tail, head].filterMap EdgeEnd.name?) with
          edges := b.edges ++ [Edge.between tailKey headKey] })) ∨
    (tail.key? = none ∧ ∃ f, s.addEdge g tail head = (.error f, s)) ∨
    (head.key? = none ∧ ∃ f, s.addEdge g tail head =
      (.error f, s.modifyBlock g fun b => b.declare tail.name?.toList)) := by
  have hadd : s.addEdge g tail head = ((p.block.addEdge tail head).1,
      s.modifyBlock g fun _ => (p.block.addEdge tail head).2) := onBlock_eq hp _
  rcases p.block.addEdge_eq tail head with ⟨tailKey, headKey, ht, hh, heq⟩ | ⟨ht, f, heq⟩ |
    ⟨hh, f, heq⟩
  · refine .inl ⟨tailKey, headKey, ht, hh, ?_⟩
    rw [hadd, heq]
    exact congrArg (Prod.mk _) (modifyBlock_const hp fun b =>
      { b.declare ([tail, head].filterMap EdgeEnd.name?) with
        edges := b.edges ++ [Edge.between tailKey headKey] })
  · refine .inr (.inl ⟨ht, f, ?_⟩)
    rw [hadd, heq, modifyBlock_const hp fun b => b, modifyBlock_id]
  · refine .inr (.inr ⟨hh, f, ?_⟩)
    rw [hadd, heq]
    exact congrArg (Prod.mk _) (modifyBlock_const hp fun b => b.declare tail.name?.toList)

/-- A refused edge leaves its tail exactly if that is a name that is missing. -/
theorem declare_tail_cases (hp : s.graphs[g]? = some p) (tail : EdgeEnd) :
    (s.modifyBlock g fun b => b.declare tail.name?.toList) = s ∨
    ∃ name, tail.name? = some name ∧ name.render ∉ p.block.keys ∧
      (s.modifyBlock g fun b => b.declare tail.name?.toList) = s.modifyBlock g fun b =>
        { b with nodes := b.nodes ++ [Node.ofName name] } := by
  rw [← modifyBlock_const hp fun b => b.declare tail.name?.toList]
  cases hname : tail.name? with
  | none =>
    rw [Option.toList_none, Block.declare_nil, modifyBlock_const hp fun b => b, modifyBlock_id]
    exact .inl rfl
  | some name =>
    rw [Option.toList_some]
    by_cases hkey : name.render ∈ p.block.keys
    · rw [Block.declare_present hkey, modifyBlock_const hp fun b => b, modifyBlock_id]
      exact .inl rfl
    · rw [Block.declare_missing hkey]
      refine .inr ⟨name, rfl, hkey, ?_⟩
      exact modifyBlock_const hp fun b => { b with nodes := b.nodes ++ [Node.ofName name] }

end laws

/-- The graphs of a sound store keep their promises. -/
theorem Sound.buildingLaws (hs : s.Sound) {g : GraphId} {p : StoredGraph}
    (hp : s.graphs[g]? = some p) : s.BuildingLaws g p where
  distinct := ((hs.graph p (List.mem_of_getElem? hp)).block).keys_nodup
  found_iff key n :=
    Block.find?_eq_some_iff (hs.graph p (List.mem_of_getElem? hp)).block.keys_nodup
  missing_iff key := Block.find?_eq_none_iff
  nested := (hs.graph p (List.mem_of_getElem? hp)).nested
  kept calls := by
    obtain ⟨p', hp', hblock, -⟩ := s.foldl_extends calls g p hp
    exact ⟨p', hp', hblock.keys_prefix, fun key n => hblock.find?_name⟩
  addNode_duplicate_iff d := by
    rcases addNode_cases hp d with ⟨f, hd, hanswer, -⟩ | ⟨name, f, hd, hkey, hfamily, hanswer, -⟩ |
      ⟨name, hd, hkey, hanswer, -⟩
    · constructor
      · rintro ⟨f', hf', hfamily⟩
        cases hanswer.symm.trans hf'
        exact absurd hfamily (Name.of_failsOnly d f hd)
      · rintro ⟨name, hname, -⟩
        cases hd.symm.trans hname
    · exact ⟨fun _ => ⟨name, hd, hkey⟩, fun _ => ⟨f, hanswer, hfamily⟩⟩
    · constructor
      · rintro ⟨f', hf', -⟩
        cases hanswer.symm.trans hf'
      · rintro ⟨name', hname, hmem⟩
        cases hd.symm.trans hname
        exact absurd hmem hkey
  addNode_new d name hd hkey := by
    rcases addNode_cases hp d with ⟨f, hd', -⟩ | ⟨name', f, hd', hkey', -⟩ |
      ⟨name', hd', -, hanswer, hafter⟩
    · cases hd.symm.trans hd'
    · cases hd.symm.trans hd'
      exact absurd hkey' hkey
    · cases hd.symm.trans hd'
      refine ⟨hanswer, _, by rw [hafter, modifyBlock_getElem? hp], rfl, ?_⟩
      exact Block.find?_addNode (Block.addNode_eq_ok.2 ⟨hkey, rfl⟩)
  nest_ok child h := by
    rcases s.nest_cases g child with ⟨-, -, heq⟩ | ⟨f, heq⟩
    · rw [GraphStore.after, heq]
    · rw [answer, heq] at h
      cases h
  createSubgraph_ok d cluster h := by
    rcases createSubgraph_cases hp d cluster with ⟨f, hanswer, -⟩ | ⟨-, hafter⟩
    · cases hanswer.symm.trans h
    · exact hafter
  refused d child cluster call hcall f h := by
    simp only [List.mem_cons, List.not_mem_nil, or_false] at hcall
    rcases hcall with rfl | rfl | rfl
    · rcases addNode_cases hp d with ⟨-, -, -, hafter⟩ | ⟨-, -, -, -, -, -, hafter⟩ |
        ⟨-, -, -, hanswer, -⟩
      · exact hafter
      · exact hafter
      · cases hanswer.symm.trans h
    · rcases s.nest_cases g child with ⟨-, -, heq⟩ | ⟨f', heq⟩
      · rw [answer, heq] at h
        cases h
      · rw [GraphStore.after, heq]
    · rcases createSubgraph_cases hp d cluster with ⟨-, -, hafter⟩ | ⟨hanswer, -⟩
      · exact hafter
      · cases hanswer.symm.trans h
  addEdge_ok_iff tail head := by
    rw [answer]
    rcases addEdge_cases hp tail head with ⟨tailKey, headKey, ht, hh, heq⟩ | ⟨ht, f, heq⟩ |
      ⟨hh, f, heq⟩
    · simp [heq, ht, hh]
    · simp [heq, ht]
    · simp [heq, hh]
  addEdge_ok tail head h := by
    rw [answer] at h
    rcases addEdge_cases hp tail head with ⟨tailKey, headKey, ht, hh, heq⟩ | ⟨-, f, heq⟩ |
      ⟨-, f, heq⟩
    · exact ⟨tailKey, headKey, ht, hh, by rw [GraphStore.after, heq]; rfl⟩
    · rw [heq] at h
      cases h
    · rw [heq] at h
      cases h
  addEdge_error tail head f h := by
    rw [answer] at h
    rw [GraphStore.after]
    rcases addEdge_cases hp tail head with ⟨tailKey, headKey, -, -, heq⟩ | ⟨-, f', heq⟩ |
      ⟨hh, f', heq⟩
    · rw [heq] at h
      cases h
    · exact .inl (by rw [heq])
    · rw [heq]
      rcases declare_tail_cases hp tail with hsame | ⟨name, hname, hkey, hafter⟩
      · exact .inl hsame
      · exact .inr ⟨name, hname, hkey, hh, hafter⟩

/-- **Every graph of every store keeps its promises to those who build it.** -/
theorem run_buildingLaws (calls : List Call) {g : GraphId} {p : StoredGraph}
    (hp : (run calls).graphs[g]? = some p) : (run calls).BuildingLaws g p :=
  (run_sound calls).buildingLaws hp

/-- A graph with an edge that was refused for its head. -/
def halfEdgeCalls : List Call := [
  .create none (.raw (.text "pond")) .digraph,
  .addEdge 0 (.named (.raw (.text "sluice"))) (.named (.raw (.text "")))]

/-- The graph of these calls, which has the tail of the edge. -/
def halfEdge : StoredGraph :=
  ⟨{ Block.empty (.id ⟨"pond", by decide⟩) .digraph with
    nodes := [Node.ofName (.id ⟨"sluice", by decide⟩)] }, none, []⟩

theorem halfEdge_buildingLaws : (run halfEdgeCalls).graphs[0]? = some halfEdge ∧
    (run halfEdgeCalls).BuildingLaws 0 halfEdge :=
  ⟨rfl, run_buildingLaws halfEdgeCalls rfl⟩

end GraphStore

end DotWriter
