import DotWriter.Config
import DotWriter.Proofs.Attribute.Faults
import DotWriter.Proofs.Graph.Described

/-!
# Which faults of the input are reported

What is wrong with a description or a configuration is reported as an error of the input, but for
three cases that nobody foresaw.

* `Raw.LoadFault` : how a description may fail: with a fault that is reported, because of a number
  that is too large, or because of layers whose names are lists or mappings;
* `Block.fill_failsFrom` : what is said about one graph fails only like that;
* `describe_failsOnly` : so does the description of a graph, at every level of nesting;
* `load_reported` : **a description or configuration is loaded, or its fault is reported**, apart
  from these cases and a configuration that is no mapping.
-/

namespace DotWriter

open Outcome Description

/-! ### Faults of a description -/

namespace Raw

/-- Somewhere in the datum the entry for layers is a list with an item that is no text. -/
def HoldsNestedLayers (r : Raw) : Prop :=
  ∃ entries s, IsPart (.map entries) r ∧ (.text "layers", s) ∈ entries ∧ s.HasNestedItem

/-- How the description of a graph may fail. -/
inductive LoadFault (r : Raw) : Fault → Prop
  | reported {f : Fault} (h : f.isReported = true) : LoadFault r f
  | tooLarge (h : r.HoldsTooLarge) : LoadFault r .tooLarge
  | nestedLayers (h : r.HoldsNestedLayers) : LoadFault r .wrongOperand

theorem LoadFault.of_isPart {r s : Raw} (h : IsPart r s) {f : Fault} (hf : r.LoadFault f) :
    s.LoadFault f := by
  cases hf with
  | reported hf => exact .reported hf
  | tooLarge hr => exact .tooLarge (hr.of_isPart h)
  | nestedLayers hr =>
    obtain ⟨entries, t, hpart, hmem, ht⟩ := hr
    exact .nestedLayers ⟨entries, t, hpart.trans h, hmem, ht⟩

/-- Nothing at all has no part that could be at fault. -/
theorem LoadFault.of_null {r : Raw} {f : Fault} (hf : null.LoadFault f) : r.LoadFault f := by
  cases hf with
  | reported hf => exact .reported hf
  | tooLarge h =>
    obtain ⟨n, ⟨⟩, -⟩ := h
  | nestedLayers h =>
    obtain ⟨entries, s, ⟨⟩, -⟩ := h

/-- A fault of a field is one of its mapping. -/
theorem LoadFault.of_field {entries : List (Raw × Raw)} {key : String} {f : Fault}
    (hf : (field entries key).LoadFault f) : (map entries).LoadFault f := by
  unfold field get? at hf
  cases hfind : entries.find? _ with
  | none =>
    rw [hfind] at hf
    exact hf.of_null
  | some e =>
    rw [hfind] at hf
    exact hf.of_isPart (.value (List.mem_of_find?_eq_some hfind) .refl)

end Raw

theorem OnlyReports.loads {α : Type} {x : Except Fault α} (h : OnlyReports x) (r : Raw) :
    FailsOnly r.LoadFault x := h.mono fun _ => .reported

/-! ### Parts of a description -/

namespace Description

theorem mapping_onlyReports (r : Raw) (what : String) : OnlyReports (mapping r what) := by
  unfold mapping
  split
  · exact .ok _
  · exact .ok _
  · exact .error rfl

/-- What a mapping is made of are its entries. -/
theorem isPart_of_mem_mapping {r : Raw} {what : String} {entries : List (Raw × Raw)}
    (h : mapping r what = .ok entries) {e : Raw × Raw} (he : e ∈ entries) : Raw.IsPart e.2 r := by
  obtain rfl := mapping_eq_ok h
  cases r with
  | map entries => exact .value he .refl
  | _ => exact absurd he List.not_mem_nil

theorem attributeOf_onlyReports (key : Raw) : OnlyReports (attributeOf key) := by
  unfold attributeOf
  dsimp only
  split
  · exact .ok _
  · exact .error rfl

theorem nameOf_onlyReports (r : Raw) : OnlyReports (nameOf r) := by
  unfold nameOf
  split
  · exact .error rfl
  · exact .error rfl
  · exact (Integer.of_failsOnly _).reports.map _
  · exact (Double.of_failsOnly _ _).reports.map _
  · exact .ok _

theorem listOf_onlyReports (r : Raw) {notList : Fault} (h : notList.isReported = true) :
    OnlyReports (listOf r notList) := by
  unfold listOf
  split_ifs
  · split
    · exact .ok _
    · exact .error h
  · exact .ok _

theorem isPart_of_mem_listOf {r : Raw} {notList : Fault} {items : List Raw}
    (h : listOf r notList = .ok items) {s : Raw} (hs : s ∈ items) : Raw.IsPart s r := by
  obtain rfl := listOf_eq_ok h
  cases r with
  | list items => exact .item hs .refl
  | _ => exact absurd hs List.not_mem_nil

theorem kindOf_onlyReports (entries : List (Raw × Raw)) : OnlyReports (kindOf entries) := by
  unfold kindOf
  split
  · exact .ok _
  · dsimp only
    split
    · exact .ok _
    · exact .error rfl

theorem endsOf_onlyReports (entries : List (Raw × Raw)) : OnlyReports (endsOf entries) := by
  unfold endsOf
  split
  · exact (nameOf_onlyReports _).bind fun _ _ => (nameOf_onlyReports _).bind fun _ _ => .ok _
  · exact .error rfl

end Description

/-! ### Tables -/

/-- An entry of a mapping is at fault in its key, in its value, or because the table refuses it. -/
theorem Table.fillEntry_failsFrom {entries : List (Raw × Raw)} {entry : Raw × Raw}
    (hmem : entry ∈ entries) :
    Changing.FailsFrom (Raw.map entries).LoadFault (fillEntry entry) := by
  obtain ⟨key, r⟩ := entry
  have hpart : Raw.IsPart r (.map entries) := .value hmem .refl
  refine .lift_bind ((attributeOf_onlyReports key).loads _) fun attr hattr => ?_
  obtain ⟨a, rfl, rfl⟩ := attributeOf_eq_ok hattr
  have hread : FailsOnly (Raw.map entries).LoadFault (coerce (.dot a) r) := by
    refine (coerce_failsOnly _ r).mono ?_
    rintro f (hf | ⟨rfl, hlarge⟩)
    · exact .reported hf
    · exact .tooLarge (hlarge.of_isPart hpart)
  refine .lift_bind hread fun v hv t => ?_
  have hcheck : FailsOnly (Raw.map entries).LoadFault (check (.dot a) (.value v)) := by
    refine (checkValue_coerce_failsOnly hv).mono ?_
    rintro f (hf | ⟨rfl, hname, hnested⟩)
    · exact .reported hf
    · refine .nestedLayers ⟨entries, r, .refl, ?_, hnested⟩
      rw [← hname]
      exact hmem
  rw [Changing.run_of, Table.add]
  split_ifs
  · cases hresult : check (.dot a) (.value v) with
    | ok text => exact .ok _
    | error f => exact .error (hcheck f hresult)
  · exact .error (.reported rfl)

theorem Table.fill_failsFrom (r : Raw) (what : String) :
    Changing.FailsFrom r.LoadFault (Table.fill r what) := by
  refine .lift_bind ((mapping_onlyReports r what).loads r) fun entries hentries => ?_
  obtain rfl := mapping_eq_ok hentries
  cases r with
  | map entries => exact .forM fun entry hentry => Table.fillEntry_failsFrom hentry
  | _ => exact .pure _

/-! ### One graph -/

namespace Block

/-- A table of the block is there, or the fault is one of the table. -/
theorem onTable_failsOnly {P : Fault → Prop} {x : Changing Table Unit}
    (hx : Changing.FailsFrom P x) {b : Block} {site : TableSite}
    (h : ∃ t, b.table? site = some t) : FailsOnly P ((onTable site x).runOn b).1 := by
  obtain ⟨t, ht⟩ := h
  rw [onTable, Changing.run_of, ht]
  exact hx t

theorem describeNode_failsFrom (entry : Raw × Raw) :
    Changing.FailsFrom entry.2.LoadFault (describeNode entry) := by
  refine .lift_bind ((nameOf_onlyReports _).loads _) fun name _ => ?_
  have hadd : Changing.FailsFrom entry.2.LoadFault (.of fun b : Block => b.addNode name) := by
    intro b
    rw [Changing.run_of, addNode]
    split_ifs
    · exact .error (.reported rfl)
    · exact .ok _
  refine hadd.bind_of fun b _ b' hb => ?_
  exact onTable_failsOnly (Table.fill_failsFrom _ _) ⟨_, by rw [table?, find?_addNode hb]; rfl⟩

theorem describeEdge_failsFrom (entry : Raw) :
    Changing.FailsFrom entry.LoadFault (describeEdge entry) := by
  refine .lift_bind ((mapping_onlyReports _ _).loads _) fun entries hentries => ?_
  refine .lift_bind ((endsOf_onlyReports _).loads _) fun ends _ => ?_
  have hlink : Changing.FailsFrom entry.LoadFault
      (.of fun b : Block => (.ok b.edges.length, b.link ends.1 ends.2)) := fun b => .ok _
  have hfill : Changing.FailsFrom entry.LoadFault
      (Table.fill (field entries "attributes") "edge attributes") := by
    refine (Table.fill_failsFrom _ _).mono fun f hf => ?_
    obtain rfl := mapping_eq_ok hentries
    cases entry with
    | map entries => exact hf.of_field
    | _ => exact hf.of_null
  refine hlink.bind_of fun b i b' hb => ?_
  cases hb
  refine onTable_failsOnly hfill ?_
  simp [table?, link_edges]

/-- What is said about one graph fails only as a description may. -/
theorem fill_failsFrom (entries : List (Raw × Raw)) :
    Changing.FailsFrom (Raw.map entries).LoadFault (fill entries) := by
  have htable : ∀ (role : TableRole) (key : String),
      Changing.FailsFrom (Raw.map entries).LoadFault
        (onTable (.own role) (Table.fill (field entries key) key)) := fun role key b =>
    onTable_failsOnly ((Table.fill_failsFrom _ key).mono fun f => Raw.LoadFault.of_field) ⟨_, rfl⟩
  refine (htable _ _).bind fun _ => (htable _ _).bind fun _ => (htable _ _).bind fun _ => ?_
  refine .lift_bind ((mapping_onlyReports _ _).loads _) fun nodes hnodes => ?_
  have hall : Changing.FailsFrom (Raw.map entries).LoadFault (nodes.forM describeNode) :=
    .forM fun e he => (describeNode_failsFrom e).mono fun f hf =>
      (hf.of_isPart (isPart_of_mem_mapping hnodes he)).of_field
  refine hall.bind fun _ => ?_
  refine .lift_bind ((listOf_onlyReports _ rfl).loads _) fun edges hedges => ?_
  exact .forM fun e he => (describeEdge_failsFrom e).mono fun f hf =>
    (hf.of_isPart (isPart_of_mem_listOf hedges he)).of_field

end Block

/-! ### Nested graphs -/

section describe

variable (taken? : Option (List String))

theorem openGraph_failsFrom {r : Raw} {x : Drafting Graph Unit}
    (hx : Changing.FailsFrom r.LoadFault x) (name : Name) (kind : GraphKind) :
    Changing.FailsFrom r.LoadFault (Drafting.openGraph taken? name kind x) := by
  intro d
  rw [Drafting.openGraph, Changing.run_of]
  split_ifs
  · exact .error (.reported rfl)
  · exact FailsOnly.map (hx _) _

mutual

theorem populate_failsFrom (entries : List (Raw × Raw)) :
    Changing.FailsFrom (Raw.map entries).LoadFault (populate taken? entries) := by
  rw [populate]
  refine (Changing.FailsFrom.within (Block.fill_failsFrom entries)).bind fun _ => ?_
  have hitems : OnlyReports (listOf (field entries "subgraphs") .subgraphsNotList) :=
    listOf_onlyReports _ rfl
  split
  · rename_i f h
    exact .throw (.reported (hitems f h))
  · rename_i items h
    have : sizeOf items < sizeOf entries + 1 := by
      rw [listOf_eq_ok h]
      exact Nat.lt_succ_of_le (sizeOf_listed_field entries "subgraphs")
    refine Changing.FailsFrom.within (describeAll_failsFrom items fun s hs f hf => ?_)
    exact (hf.of_isPart (isPart_of_mem_listOf h hs)).of_field
termination_by sizeOf entries + 1

theorem describeAll_failsFrom (items : List Raw) {P : Fault → Prop}
    (h : ∀ s ∈ items, ∀ f, s.LoadFault f → P f) :
    Changing.FailsFrom P (describeAll taken? items) := by
  cases items with
  | nil =>
    rw [describeAll]
    exact .pure _
  | cons item items =>
    have := sizeOf_item_lt item items
    obtain ⟨hitem, hitems⟩ := List.forall_mem_cons.1 h
    rw [describeAll]
    exact ((describeSubgraph_failsFrom item).mono hitem).bind fun _ =>
      describeAll_failsFrom items hitems
termination_by sizeOf items

theorem describeSubgraph_failsFrom (item : Raw) :
    Changing.FailsFrom item.LoadFault (describeSubgraph taken? item) := by
  cases item with
  | map entries =>
    rw [describeSubgraph]
    split
    · exact .throw (.reported rfl)
    · refine .lift_bind ((nameOf_onlyReports _).loads _) fun name _ => ?_
      exact openGraph_failsFrom taken? (populate_failsFrom entries) name _
  | _ =>
    unfold describeSubgraph
    exact .throw (.reported rfl)
termination_by sizeOf item + 1

end

theorem describeGraph_failsFrom (r : Raw) :
    Changing.FailsFrom r.LoadFault (describeGraph taken? r) := by
  unfold describeGraph
  split
  · split
    · exact .throw (.reported rfl)
    · refine .lift_bind ((kindOf_onlyReports _).loads _) fun kind _ => ?_
      refine .lift_bind ((nameOf_onlyReports _).loads _) fun name _ => ?_
      exact openGraph_failsFrom taken? (populate_failsFrom taken? _) name kind
  · exact .throw (.reported rfl)

end describe

/-- The description of a graph fails only as a description may, at every level of nesting. -/
theorem describe_failsOnly (taken? : Option (List String)) (r : Raw) :
    FailsOnly r.LoadFault (describe taken? r).1 := describeGraph_failsFrom taken? r ⟨[], []⟩

/-! ### Configurations -/

/-- Whether the text holds data that is no mapping. -/
def holdsNoMapping (text : String) : Bool :=
  match readJson? text with
  | none | some (.map _) => false
  | some _ => true

theorem RenderConfig.of_onlyReports (indent trailingNewline : Raw) :
    OnlyReports (RenderConfig.of indent trailingNewline) := by
  unfold RenderConfig.of
  split
  · exact .ok _
  · exact .error rfl

/-- A configuration fails with a fault that is reported, unless it is no mapping. -/
theorem RenderConfig.load_failsOnly (text : String) :
    FailsOnly (fun f => if holdsNoMapping text then f = .noSuchPart else f.isReported = true)
      (load text) := by
  unfold load holdsNoMapping
  cases readJson? text with
  | none => exact .error rfl
  | some data =>
    cases data with
    | map entries => exact of_onlyReports _ _
    | _ => exact .error rfl

/-! ### The input -/

/-- **A description or configuration is loaded, or its fault is reported.**  The exceptions are
numbers that are too large, layers whose names are lists or mappings, and a configuration that is no
mapping. -/
theorem load_reported (taken? : Option (List String)) (r : Raw) (text : String) :
    ((∃ g, (describe taken? r).1 = .ok g) ∨
      ∃ f, (describe taken? r).1 = .error f ∧ r.LoadFault f) ∧
    ((∃ c, RenderConfig.load text = .ok c) ∨ ∃ f, RenderConfig.load text = .error f ∧
      if holdsNoMapping text then f = .noSuchPart else f.isReported = true) :=
  ⟨(describe_failsOnly taken? r).ok_or_error, (RenderConfig.load_failsOnly text).ok_or_error⟩

/-- A graph with a layer whose name is a list. -/
def nestedLayerEntries : List (Raw × Raw) := [
  (.text "name", .text "g"),
  (.text "attributes", .map [(.text "layers", .list [.list [.text "a"]])])]

theorem describe_nestedLayers :
    (describe none (.map nestedLayerEntries)).1 = .error .wrongOperand := by
  have hgraph : describeGraph none (.map nestedLayerEntries) =
      .openGraph none (.id ⟨"g", by decide⟩) .digraph (do
        .onBlock (Block.fill nestedLayerEntries)
        .onSubgraphs (describeAll none [])) := by
    simp only [describeGraph, populate]
    rfl
  rw [describe, hgraph, describeAll]
  rfl

/-- A fault of a description or of a configuration need not be reported. -/
theorem load_not_reported :
    ¬ ((∀ r f, (describe none r).1 = .error f → f.isReported = true) ∨
      ∀ text f, RenderConfig.load text = .error f → f.isReported = true) := by
  rintro (h | h)
  · exact absurd (h _ _ describe_nestedLayers) (by decide)
  · have hload : RenderConfig.load "[]" = .error .noSuchPart := rfl
    exact absurd (h _ _ hload) (by decide)

end DotWriter
