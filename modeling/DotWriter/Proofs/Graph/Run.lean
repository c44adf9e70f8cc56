import DotWriter.Proofs.Graph.Store
import DotWriter.Workspace.Attributes

/-!
# Runs of a store

A store is built by a sequence of calls, some of which are refused.  `GraphStore.run` is the store
after such a sequence.

* `Call` : what can be asked of a store, with the arguments as they are given;
* `run_sound` : **every store that can be reached is sound**;
* `Action.addAttribute_store` : writing an attribute in a workspace is such a call.
-/

namespace DotWriter

namespace GraphStore

/-- What can be asked of a store. -/
inductive Call
  | addRegistry
  | create (registryId? : Option Nat) (name : Datum) (kind : GraphKind)
  | createSubgraph (parent : GraphId) (name : Datum) (cluster : Bool)
  | nest (parent child : GraphId)
  | addNode (g : GraphId) (name : Datum)
  | addEdge (g : GraphId) (tail head : EdgeEnd)
  | addAttribute (g : GraphId) (site : TableSite) (attr : AttributeId) (d : Datum)
  | load (registryId? : Option Nat) (description : Raw)

/-- Does something with a name, if a datum is one. -/
def named {α : Type} (s : GraphStore) (name : Datum)
    (f : Name → Except Fault α × GraphStore) : GraphStore :=
  match Name.of name with
  | .ok name => (f name).2
  | .error _ => s

/-- The store after a call, whether it is refused or not. -/
def after (s : GraphStore) : Call → GraphStore
  | .addRegistry => s.addRegistry.2
  | .create registryId? name kind => s.named name fun name => s.create registryId? name kind
  | .createSubgraph parent name cluster =>
    s.named name fun name => s.createSubgraph parent name cluster
  | .nest parent child => (s.nest parent child).2
  | .addNode g name => s.named name (s.addNode g)
  | .addEdge g tail head => (s.addEdge g tail head).2
  | .addAttribute g site attr d => (s.addAttribute g site attr d).2
  | .load registryId? description => (s.load registryId? description).2

/-- The store after calls on an empty one. -/
def run (calls : List Call) : GraphStore := calls.foldl after empty

namespace Sound

variable {s : GraphStore}

theorem named {α : Type} (hs : s.Sound) (name : Datum) {f : Name → Except Fault α × GraphStore}
    (hf : ∀ name, Sound (f name).2) : Sound (s.named name f) := by
  unfold GraphStore.named
  split
  · exact hf _
  · exact hs

/-- Every call keeps a store sound, whether it is refused or not. -/
theorem after (hs : s.Sound) (call : Call) : Sound (s.after call) := by
  cases call with
  | addRegistry => exact hs.addRegistry
  | create registryId? name kind => exact hs.named name fun name => hs.create registryId? name kind
  | createSubgraph parent name cluster =>
    exact hs.named name fun name => hs.createSubgraph parent name cluster
  | nest parent child => exact hs.nest parent child
  | addNode g name => exact hs.named name fun name => hs.addNode g name
  | addEdge g tail head => exact hs.addEdge g tail head
  | addAttribute g site attr d => exact hs.addAttribute g site attr d
  | load registryId? description => exact hs.load registryId? description

end Sound

/-- **Every store that can be reached is sound.** -/
theorem run_sound (calls : List Call) : (run calls).Sound := by
  have : ∀ s : GraphStore, s.Sound → (calls.foldl GraphStore.after s).Sound := by
    induction calls with
    | nil => exact fun s hs => hs
    | cons call calls ih => exact fun s hs => ih _ (hs.after call)
  exact this _ .empty

end GraphStore

/-! ### Tables in a workspace -/

/-- Writing an attribute of a graph, a node or an edge in a workspace is a call of its store. -/
theorem Action.addAttribute_store (w : Workspace) (g : GraphId) (site : TableSite)
    (attr : AttributeId) (d : Datum) :
    ((Action.addAttribute (.graph g site) attr d).runOn w).2.store =
      w.store.after (.addAttribute g site attr d) := by
  have hrun : (Action.addAttribute (.graph g site) attr d).runOn w =
      ((liftExcept (Workspace.required (w.table? (.graph g site))) >>= fun t => do
        modify fun w => w.setTable (t.add attr d).2 (.graph g site)
        liftExcept (t.add attr d).1
        return (t.add attr d).2 : Action Table)).runOn w := rfl
  have hset : ∀ t t' : Table, (((do
      modify fun w => w.setTable t' (.graph g site)
      liftExcept (t.add attr d).1
      return t' : Action Table)).runOn w).2 = w.setTable t' (.graph g site) := by
    intro t t'
    rcases (t.add attr d).1 with f | _ <;> rfl
  rw [hrun, Changing.run_bind, Changing.run_lift, GraphStore.after, GraphStore.addAttribute,
    GraphStore.onBlock, Workspace.table?]
  cases hp : w.store.graphs[g]? with
  | none => rfl
  | some p =>
    rw [Option.bind_some]
    cases ht : p.block.table? site with
    | none =>
      simp only [Workspace.required, Block.addAttribute, ht]
      exact ((GraphStore.modifyBlock_const hp fun b => b).trans (GraphStore.modifyBlock_id _ g)).symm
    | some t =>
      simp only [Workspace.required, Block.addAttribute, ht, hset]
      exact (GraphStore.modifyBlock_const hp fun b => b.setTable (t.add attr d).2 site).symm

end DotWriter
