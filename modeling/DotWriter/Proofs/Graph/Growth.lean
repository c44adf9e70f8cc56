import DotWriter.Description
import DotWriter.Proofs.Outcome
import Mathlib.Data.List.Nodup
import Mathlib.Logic.Relation
import Mathlib.Tactic.SplitIfs

/-!
# How blocks grow

Whatever is done to a block is made of three small steps: a node that is new, an edge between two
names, or one more write to one of the tables.  `Block.Grows` is such a step, and a block is
`Block.Reachable` if steps lead to it from the block that declares nothing.

* `Block.addNode_grows`, `Block.link_grows`, `Block.addEdge_grows`, `Block.addAttribute_grows` : the
  operations of blocks are made of such steps, also when they are refused;
* `Block.fill_leads` : so is what a description says about one graph, up to where it is at fault.

What holds of a new block and survives the three steps therefore holds of every block, however it
was built.
-/

namespace DotWriter

open Description

/-- The edge lies between two names. -/
def Edge.IsNamed (e : Edge) : Prop :=
  ∃ tail head : Name, e.tail = tail.render ∧ e.head = head.render

namespace Block

/-- One small step of a block.  A write may be refused. -/
inductive Grows (b : Block) : Block → Prop
  | node {name : Name} (h : name.render ∉ b.keys) :
    Grows b { b with nodes := b.nodes ++ [Node.ofName name] }
  | edge (tail head : Name) :
    Grows b { b with edges := b.edges ++ [Edge.between tail.render head.render] }
  | write {site : TableSite} {t : Table} (ht : b.table? site = some t) (attr : AttributeId)
    (d : Datum) : Grows b (b.setTable (t.add attr d).2 site)

/-- Several small steps. -/
abbrev GrowsTo : Block → Block → Prop := Relation.ReflTransGen Grows

/-- The block can be built. -/
def Reachable (b : Block) : Prop := GrowsTo (empty b.name b.kind) b

theorem Reachable.of_empty (name : Name) (kind : GraphKind) : (empty name kind).Reachable := .refl

/-! ### Sites -/

@[simp] theorem setTable_name (b : Block) (t : Table) (site : TableSite) :
    (b.setTable t site).name = b.name := by
  rcases site with (_ | _ | _) | _ | _ <;> rfl

@[simp] theorem setTable_kind (b : Block) (t : Table) (site : TableSite) :
    (b.setTable t site).kind = b.kind := by
  rcases site with (_ | _ | _) | _ | _ <;> rfl

@[simp] theorem setTable_keys (b : Block) (t : Table) (site : TableSite) :
    (b.setTable t site).keys = b.keys := by
  rcases site with (_ | _ | _) | key | _
  case node =>
    simp only [setTable, modifyNode, keys, List.map_map]
    refine List.map_congr_left fun n _ => ?_
    simp only [Function.comp_apply]
    split_ifs <;> rfl
  all_goals rfl

/-- A write changes no end of an edge. -/
@[simp] theorem setTable_ends (b : Block) (t : Table) (site : TableSite) :
    (b.setTable t site).edges.map (fun e => (e.tail, e.head)) =
      b.edges.map fun e => (e.tail, e.head) := by
  rcases site with (_ | _ | _) | _ | i
  case edge =>
    refine List.ext_getElem? fun j => ?_
    simp only [setTable, List.getElem?_map, List.getElem?_modify]
    cases b.edges[j]? with
    | none => rfl
    | some e =>
      simp only [Option.map_some]
      split_ifs <;> rfl
  all_goals rfl

theorem find?_modifyNode {b : Block} {key : String} {n : Node} {f : Node → Node}
    (hf : ∀ n, (f n).key = n.key) (h : b.find? key = some n) :
    (b.modifyNode key f).find? key = some (f n) := by
  have hkey : n.key == key := by simpa using List.find?_some h
  have hcomp : (fun m : Node => (if m.key == key then f m else m).key == key) =
      fun m => m.key == key := by
    funext m
    split_ifs with hm
    · rw [hf]
    · rfl
  rw [find?, modifyNode, List.find?_map]
  simp only [Function.comp_def, hcomp]
  rw [show b.nodes.find? (fun m => m.key == key) = some n from h, Option.map_some, if_pos hkey]

theorem table?_setTable {b : Block} {site : TableSite} {t : Table} (h : b.table? site = some t)
    (t' : Table) : (b.setTable t' site).table? site = some t' := by
  cases site with
  | own role => cases role <;> rfl
  | node key =>
    obtain ⟨n, hn, -⟩ := Option.map_eq_some_iff.1 h
    simp only [table?, setTable, find?_modifyNode (f := fun n => { n with attributes := t' })
      (fun n => rfl) hn, Option.map_some]
  | edge i =>
    obtain ⟨e, he, -⟩ := Option.map_eq_some_iff.1 h
    simp [table?, setTable, he]

theorem setTable_setTable (b : Block) (t t' : Table) (site : TableSite) :
    (b.setTable t site).setTable t' site = b.setTable t' site := by
  cases site with
  | own role => cases role <;> rfl
  | node key =>
    simp only [setTable, modifyNode, List.map_map]
    congr 1
    refine List.map_congr_left fun n _ => ?_
    by_cases hn : n.key = key
    · have : (⟨n.name, t⟩ : Node).key = key := hn
      simp only [Function.comp_apply, hn, this, beq_self_eq_true, if_true]
    · simp only [Function.comp_apply, hn, beq_iff_eq, if_false]
  | edge i => simp [setTable, List.modify_modify_eq, Function.comp_def]

/-- If no two nodes share a key, a table that is put back changes nothing. -/
theorem setTable_self {b : Block} (hb : b.keys.Nodup) {site : TableSite} {t : Table}
    (h : b.table? site = some t) : b.setTable t site = b := by
  cases site with
  | own role => cases role <;> cases h <;> rfl
  | node key =>
    obtain ⟨m, hm, rfl⟩ := Option.map_eq_some_iff.1 h
    have hkey : m.key = key := by simpa using List.find?_some hm
    -- the node that was found is the only one with its key
    have hmap : (b.nodes.map fun n => if n.key == key then (⟨n.name, m.attributes⟩ : Node) else n) =
        b.nodes.map id := by
      refine List.map_congr_left fun n hn => ?_
      split_ifs with hk
      · have : n = m := List.inj_on_of_nodup_map hb hn (List.mem_of_find?_eq_some hm)
          ((beq_iff_eq.1 hk).trans hkey.symm)
        rw [this]
        rfl
      · rfl
    rw [List.map_id] at hmap
    simp only [setTable, modifyNode, hmap]
  | edge i =>
    obtain ⟨e, he, rfl⟩ := Option.map_eq_some_iff.1 h
    obtain ⟨hi, rfl⟩ := List.getElem?_eq_some_iff.1 he
    have hset : b.edges.modify i (fun e => ⟨e.tail, e.head, b.edges[i].attributes⟩) = b.edges := by
      rw [List.modify_eq_set_getElem?, List.getElem?_eq_getElem hi]
      exact List.set_getElem_self hi
    simp only [setTable, hset]

/-! ### What steps keep -/

namespace Grows

variable {b b' : Block}

theorem name_eq (h : Grows b b') : b'.name = b.name := by
  cases h with
  | node _ => rfl
  | edge _ _ => rfl
  | write _ _ _ => exact setTable_name _ _ _

theorem kind_eq (h : Grows b b') : b'.kind = b.kind := by
  cases h with
  | node _ => rfl
  | edge _ _ => rfl
  | write _ _ _ => exact setTable_kind _ _ _

theorem keys_nodup (h : Grows b b') (hb : b.keys.Nodup) : b'.keys.Nodup := by
  cases h with
  | node hn =>
    rw [keys, List.map_append]
    exact List.concat_eq_append ▸ List.Nodup.concat hn hb
  | edge _ _ => exact hb
  | write _ _ _ => rwa [setTable_keys]

/-- A step keeps edges between names. -/
theorem edges_named (h : Grows b b') (hb : ∀ e ∈ b.edges, e.IsNamed) :
    ∀ e ∈ b'.edges, e.IsNamed := by
  cases h with
  | node _ => exact hb
  | edge tail head =>
    intro e he
    rcases List.mem_append.1 he with he | he
    · exact hb e he
    · rw [List.mem_singleton.1 he]
      exact ⟨tail, head, rfl, rfl⟩
  | @write site t _ attr d =>
    intro e he
    have hends := List.mem_map_of_mem (f := fun e : Edge => (e.tail, e.head)) he
    rw [setTable_ends] at hends
    obtain ⟨f, hf, heq⟩ := List.mem_map.1 hends
    obtain ⟨htail, hhead⟩ := Prod.mk.inj heq
    obtain ⟨tail, head, hnames⟩ := hb f hf
    exact ⟨tail, head, htail ▸ hnames.1, hhead ▸ hnames.2⟩

end Grows

namespace GrowsTo

variable {b b' : Block}

theorem name_eq (h : GrowsTo b b') : b'.name = b.name := by
  induction h with
  | refl => rfl
  | tail _ hstep ih => rw [hstep.name_eq, ih]

theorem kind_eq (h : GrowsTo b b') : b'.kind = b.kind := by
  induction h with
  | refl => rfl
  | tail _ hstep ih => rw [hstep.kind_eq, ih]

theorem keys_nodup (h : GrowsTo b b') (hb : b.keys.Nodup) : b'.keys.Nodup := by
  induction h with
  | refl => exact hb
  | tail _ hstep ih => exact hstep.keys_nodup ih

end GrowsTo

namespace Reachable

variable {b b' : Block}

/-- What a new block has and every step keeps, every block has that can be built. -/
theorem rec_on {P : Block → Prop} (h : b.Reachable) (hempty : P (empty b.name b.kind))
    (hstep : ∀ b b', P b → Grows b b' → P b') : P b := by
  have : ∀ b', GrowsTo (empty b.name b.kind) b' → P b' := by
    intro b' hb'
    induction hb' with
    | refl => exact hempty
    | tail _ hg ih => exact hstep _ _ ih hg
  exact this b h

theorem keys_nodup (h : b.Reachable) : b.keys.Nodup := GrowsTo.keys_nodup h List.nodup_nil

theorem edges_named (h : b.Reachable) : ∀ e ∈ b.edges, e.IsNamed :=
  h.rec_on (fun _ he => absurd he List.not_mem_nil) fun _ _ hb hg => hg.edges_named hb

theorem growsTo (h : b.Reachable) (hg : GrowsTo b b') : b'.Reachable := by
  unfold Reachable
  rw [hg.name_eq, hg.kind_eq]
  exact Relation.ReflTransGen.trans h hg

end Reachable

/-! ### Operations -/

theorem ensureNode_grows (b : Block) (name : Name) : GrowsTo b (b.ensureNode name) := by
  unfold ensureNode
  split_ifs with h
  · exact .refl
  · exact .single (.node (by simpa using h))

theorem addNode_eq_ok {b b' : Block} {name : Name} :
    b.addNode name = (.ok (), b') ↔
      name.render ∉ b.keys ∧ b' = { b with nodes := b.nodes ++ [Node.ofName name] } := by
  unfold addNode
  split_ifs with h
  · simp only [Prod.mk.injEq, reduceCtorEq, false_and, false_iff, not_and]
    exact fun hnot => absurd (by simpa using h) hnot
  · simp only [Prod.mk.injEq, true_and, eq_comm (a := b')]
    exact ⟨fun heq => ⟨by simpa using h, heq⟩, fun heq => heq.2⟩

/-- A node that was added is found. -/
theorem find?_addNode {b b' : Block} {name : Name} (h : b.addNode name = (.ok (), b')) :
    b'.find? name.render = some (Node.ofName name) := by
  obtain ⟨hnot, rfl⟩ := addNode_eq_ok.1 h
  have hnone : b.nodes.find? (fun n => n.key == name.render) = none := by
    rw [List.find?_eq_none]
    intro n hn heq
    exact hnot (List.mem_map.2 ⟨n, hn, beq_iff_eq.1 heq⟩)
  rw [find?, List.find?_append, hnone, Option.none_or]
  exact List.find?_cons_of_pos (beq_self_eq_true _)

theorem addNode_grows (b : Block) (name : Name) : GrowsTo b (b.addNode name).2 := by
  unfold addNode
  split_ifs with h
  · exact .refl
  · exact .single (.node (by simpa using h))

theorem link_grows (b : Block) (tail head : Name) : GrowsTo b (b.link tail head) :=
  ((b.ensureNode_grows tail).trans (ensureNode_grows _ head)).tail (.edge _ _)

/-- An end that is found has a name. -/
theorem reachEnd_grows {b b' : Block} {e : EdgeEnd} {key : String}
    (h : b.reachEnd e = .ok (key, b')) : GrowsTo b b' ∧ ∃ name : Name, key = name.render := by
  cases e with
  | node name =>
    cases h
    exact ⟨.refl, name, rfl⟩
  | named d =>
    obtain ⟨name, -, h⟩ := Outcome.bind_eq_ok.1 h
    cases h
    exact ⟨b.ensureNode_grows name, name, rfl⟩

theorem addEdge_grows (b : Block) (tail head : EdgeEnd) : GrowsTo b (b.addEdge tail head).2 := by
  unfold addEdge
  split
  · exact .refl
  · rename_i tailKey b₁ htail
    obtain ⟨hgrows, tailName, rfl⟩ := reachEnd_grows htail
    split
    · exact hgrows
    · rename_i headKey b₂ hhead
      obtain ⟨hgrows', headName, rfl⟩ := reachEnd_grows hhead
      exact (hgrows.trans hgrows').tail (.edge tailName headName)

theorem addAttribute_grows (b : Block) (site : TableSite) (attr : AttributeId) (d : Datum) :
    GrowsTo b (b.addAttribute site attr d).2 := by
  unfold addAttribute
  split
  · exact .refl
  · rename_i t ht
    exact .single (.write ht attr d)

end Block

/-! ### Descriptions -/

/-- Several writes, of which some may be refused. -/
abbrev Table.WritesTo : Table → Table → Prop :=
  Relation.ReflTransGen fun t t' => ∃ attr d, t' = (t.add attr d).2

theorem Table.fill_leads (r : Raw) (what : String) :
    Changing.Leads Table.WritesTo (Table.fill r what) := by
  refine (Changing.Leads.lift _).bind fun entries => .forM (fun entry => ?_) entries
  refine (Changing.Leads.lift _).bind fun attr => (Changing.Leads.lift _).bind fun v => ?_
  exact fun t => .single ⟨attr, .value v, rfl⟩

namespace Block

/-- If the block can be built, steps lead from it to the other one. -/
def Evolves (b b' : Block) : Prop := b.Reachable → GrowsTo b b'

instance : IsPreorder Block Evolves where
  refl _ _ := .refl
  trans _ _ _ h h' hb := (h hb).trans (h' (hb.growsTo (h hb)))

/-- What is written to the table at a site is written step by step. -/
theorem setTable_grows {b : Block} (hb : b.Reachable) {site : TableSite} {t t' : Table}
    (ht : b.table? site = some t) (h : t.WritesTo t') : GrowsTo b (b.setTable t' site) := by
  induction h with
  | refl => rw [setTable_self hb.keys_nodup ht]
  | @tail t₁ t₂ _ hstep ih =>
    obtain ⟨attr, d, rfl⟩ := hstep
    have hlast := Grows.write (table?_setTable ht t₁) attr d
    rw [setTable_setTable] at hlast
    exact ih.tail hlast

theorem onTable_leads (site : TableSite) {x : Changing Table Unit}
    (hx : Changing.Leads Table.WritesTo x) : Changing.Leads Evolves (onTable site x) := by
  intro b hb
  unfold onTable
  rw [Changing.run_of]
  split
  · exact .refl
  · rename_i t ht
    exact setTable_grows hb ht (hx t)

theorem describeNode_leads (entry : Raw × Raw) : Changing.Leads Evolves (describeNode entry) := by
  refine (Changing.Leads.lift _).bind fun name => ?_
  have hadd : Changing.Leads Evolves (.of fun b => b.addNode name) :=
    fun b _ => b.addNode_grows name
  exact hadd.bind fun _ => onTable_leads _ (Table.fill_leads _ _)

theorem describeEdge_leads (entry : Raw) : Changing.Leads Evolves (describeEdge entry) := by
  refine (Changing.Leads.lift _).bind fun entries => (Changing.Leads.lift _).bind ?_
  rintro ⟨tail, head⟩
  have hlink : Changing.Leads Evolves (.of fun b => (.ok b.edges.length, b.link tail head)) :=
    fun b _ => b.link_grows tail head
  exact hlink.bind fun _ => onTable_leads _ (Table.fill_leads _ _)

/-- **What a description says about one graph is a sequence of small steps**, also if it is at fault
somewhere. -/
theorem fill_leads (entries : List (Raw × Raw)) : Changing.Leads Evolves (fill entries) := by
  have htable : ∀ role key, Changing.Leads Evolves
      (onTable (.own role) (Table.fill (field entries key) key)) := fun role key =>
    onTable_leads _ (Table.fill_leads _ _)
  refine (htable _ _).bind fun _ => (htable _ _).bind fun _ => (htable _ _).bind fun _ => ?_
  refine (Changing.Leads.lift _).bind fun nodes => ?_
  refine (Changing.Leads.forM describeNode_leads nodes).bind fun _ => ?_
  exact (Changing.Leads.lift _).bind fun edges => .forM describeEdge_leads edges

/-- The node with the attribute at fault is left without it, after the nodes before. -/
example :
    ((fill [(.text "nodes", .map [(.text "a", .null),
      (.text "b", .map [(.text "color", .text "nope")])])]).runOn
        (empty (.string "g") .digraph)).2.nodes.map Node.key = ["a", "b"] := by
  decide +kernel

theorem ensureNode_edges (b : Block) (name : Name) : (b.ensureNode name).edges = b.edges := by
  unfold ensureNode
  split_ifs <;> rfl

theorem link_edges (b : Block) (tail head : Name) :
    (b.link tail head).edges = b.edges ++ [Edge.between tail.render head.render] := by
  simp only [link, ensureNode_edges]

end Block

end DotWriter
