import DotWriter.Proofs.Attribute.History
import DotWriter.Proofs.Graph.Store

/-!
# What the graph of a description declares

`Describes` relates a description to the graph that it stands for, table by table, node by node and
edge by edge, without running the loader.

* `Raw.hasDistinctKeys` : no mapping, however deep, has a key twice;
* `Raw.IsName`, `IsNestedKind` : the rules for names and for the kinds of subgraphs;
* `firstMentions` : the names that edges mention and nobody declared, in order;
* `IsTable`, `IsNode`, `IsEdge`, `Block.IsDescribed` : what each part of a description stands for;
* `Block.fill_described` : a block that was filled declares what is described;
* `describe_describes` : **a description that is accepted yields the graph that it describes**, at
  every level of nesting;
* `GraphStore.load_describes` : so does a description that is loaded into a store.
-/

namespace DotWriter

/-! ### Mappings -/

namespace Raw

mutual

/-- No mapping in the datum has a key twice. -/
def hasDistinctKeys : Raw → Bool
  | list items => itemsDistinct items
  | map entries => entriesDistinct entries
  | _ => true

/-- No mapping in the items has a key twice. -/
def itemsDistinct : List Raw → Bool
  | [] => true
  | r :: rs => r.hasDistinctKeys && itemsDistinct rs

/-- The keys are distinct, and no mapping in the values has one twice. -/
def entriesDistinct : List (Raw × Raw) → Bool
  | [] => true
  | (k, r) :: rest =>
    rest.all (fun e => !k.sameKey e.1) && r.hasDistinctKeys && entriesDistinct rest

end

theorem hasDistinctKeys_of_mem {items : List Raw} (h : itemsDistinct items = true) {r : Raw}
    (hr : r ∈ items) : r.hasDistinctKeys = true := by
  induction items with
  | nil => exact absurd hr List.not_mem_nil
  | cons s items ih =>
    rw [itemsDistinct, Bool.and_eq_true] at h
    rcases List.mem_cons.1 hr with rfl | hr
    · exact h.1
    · exact ih h.2 hr

theorem hasDistinctKeys_of_mem_entries {entries : List (Raw × Raw)}
    (h : entriesDistinct entries = true) {e : Raw × Raw} (he : e ∈ entries) :
    e.2.hasDistinctKeys = true := by
  induction entries with
  | nil => exact absurd he List.not_mem_nil
  | cons d entries ih =>
    rw [entriesDistinct, Bool.and_eq_true, Bool.and_eq_true] at h
    rcases List.mem_cons.1 he with rfl | he
    · exact h.1.2
    · exact ih h.2 he

end Raw

namespace Description

/-- The entries of a mapping. -/
def entriesOf : Raw → List (Raw × Raw)
  | .map entries => entries
  | _ => []

theorem mapping_eq_ok {r : Raw} {what : String} {entries : List (Raw × Raw)}
    (h : mapping r what = .ok entries) : entries = entriesOf r := by
  unfold mapping at h
  split at h <;> cases h <;> rfl

theorem entriesOf_distinct {r : Raw} (h : r.hasDistinctKeys = true) :
    Raw.entriesDistinct (entriesOf r) = true := by
  cases r with
  | map entries => exact h
  | _ => rfl

theorem listed_distinct {r : Raw} (h : r.hasDistinctKeys = true) :
    ∀ item ∈ listed r, item.hasDistinctKeys = true := by
  cases r with
  | list items => exact fun item => Raw.hasDistinctKeys_of_mem h
  | _ => exact fun item hitem => absurd hitem List.not_mem_nil

theorem field_distinct {entries : List (Raw × Raw)} (h : Raw.entriesDistinct entries = true)
    (key : String) : (field entries key).hasDistinctKeys = true := by
  unfold field Raw.get?
  cases hfind : entries.find? _ with
  | none => rfl
  | some e => exact Raw.hasDistinctKeys_of_mem_entries h (List.mem_of_find?_eq_some hfind)

theorem attributeOf_eq_ok {key : Raw} {attr : AttributeId} (h : attributeOf key = .ok attr) :
    ∃ a : DotAttribute, key = .text a.name ∧ attr = .dot a := by
  unfold attributeOf at h
  cases key with
  | text s =>
    cases hfind : DotAttribute.ofName? s with
    | none => simp only [hfind] at h; cases h
    | some a =>
      simp only [hfind] at h
      cases h
      have hname : a.name = s := by simpa using List.find?_some hfind
      exact ⟨a, by rw [hname], rfl⟩
  | _ => cases h

theorem kindOf_eq_ok {entries : List (Raw × Raw)} {kind : GraphKind}
    (h : kindOf entries = .ok kind) :
    (Raw.get? entries "kind").getD (.text "digraph") = .text kind.name := by
  unfold kindOf at h
  cases hget : Raw.get? entries "kind" with
  | none => rw [hget] at h; cases h; rfl
  | some r =>
    rw [hget] at h
    cases r with
    | text s =>
      cases hfind : GraphKind.ofName? s with
      | none => simp only [hfind] at h; cases h
      | some k =>
        simp only [hfind] at h
        cases h
        have hname : kind.name = s := by simpa using List.find?_some hfind
        rw [Option.getD_some, hname]
    | _ => cases h

end Description

open Description

/-! ### What a description stands for -/

/-- The datum counts as its text where a name is wanted. -/
def Raw.IsWord : Raw → Prop
  | text _ | list _ | map _ => True
  | _ => False

/-- The name that a datum is: an integer of 64 bits and a finite number are names themselves, and
what counts as its text is an identifier if the text is one, and else a string. -/
inductive Raw.IsName : Raw → Name → Prop
  | int (n : Integer) : IsName (.int n.val) (.int n)
  | double (x : Double) : IsName (.float (.finite x)) (.double x)
  | id {r : Raw} {x : Id} (word : r.IsWord) (text : r.plain = x.name) : IsName r (.id x)
  | string {r : Raw} (word : r.IsWord) (text : isIdentifier r.plain.toList = false) :
    IsName r (.string r.plain)

/-- The kind of a subgraph: a cluster if the entry `cluster` is there and counts as true. -/
inductive IsNestedKind (entries : List (Raw × Raw)) : GraphKind → Prop
  | cluster {r : Raw} (entry : Raw.get? entries "cluster" = some r) (true : r.isTruthy = true) :
    IsNestedKind entries .clusterSubgraph
  | plain (entry : ∀ r, Raw.get? entries "cluster" = some r → r.isTruthy = false) :
    IsNestedKind entries .subgraph

/-- An entry of a table for an entry of a mapping: the attribute of that name, with the text that
its check returns for the value that was read. -/
structure IsEntry (described : Raw × Raw) (entry : AttributeId × String) : Prop where
  named : ∃ a : DotAttribute, described.1 = .text a.name ∧ entry.1 = .dot a
  text : ∃ v, coerce entry.1 described.2 = .ok v ∧ checkValue entry.1 v = .ok entry.2

/-- A table with the entries of a mapping, in their order. -/
def IsTable (described : Raw) (t : Table) : Prop :=
  List.Forall₂ IsEntry (entriesOf described) t.entries

/-- A node for an entry of a mapping. -/
structure IsNode (described : Raw × Raw) (n : Node) : Prop where
  name : described.1.IsName n.name
  attributes : IsTable described.2 n.attributes

/-- The names of both ends of an edge. -/
structure IsEnds (described : Raw) (ends : Name × Name) : Prop where
  tail : (field (entriesOf described) "tail").IsName ends.1
  head : (field (entriesOf described) "head").IsName ends.2

/-- An edge for an item of a list. -/
structure IsEdge (described : Raw) (e : Edge) : Prop where
  ends : ∃ ends, IsEnds described ends ∧ e.tail = ends.1.render ∧ e.head = ends.2.render
  attributes : IsTable (field (entriesOf described) "attributes") e.attributes

/-- The names that edges mention, the tail of each before its head. -/
def endNames (ends : List (Name × Name)) : List Name := ends.flatMap fun e => [e.1, e.2]

theorem endNames_cons (e : Name × Name) (ends : List (Name × Name)) :
    endNames (e :: ends) = [e.1, e.2] ++ endNames ends := rfl

/-- The names that are not written like one of the keys, each where it is mentioned first. -/
def firstMentions : List String → List Name → List Name
  | _, [] => []
  | keys, name :: names =>
    if keys.contains name.render then firstMentions keys names
    else name :: firstMentions (keys ++ [name.render]) names

/-- A block that declares what a mapping describes: its tables, the described nodes followed by
those that only edges mention, and the edges. -/
structure Block.IsDescribed (b : Block) (kind : GraphKind) (entries : List (Raw × Raw)) : Prop where
  name : (field entries "name").IsName b.name
  kind : b.kind = kind
  attributes : IsTable (field entries "attributes") b.attributes
  nodeDefaults : IsTable (field entries "node_defaults") b.nodeDefaults
  edgeDefaults : IsTable (field entries "edge_defaults") b.edgeDefaults
  nodes : ∃ declared ends, List.Forall₂ IsNode (entriesOf (field entries "nodes")) declared ∧
    List.Forall₂ IsEnds (listed (field entries "edges")) ends ∧
    b.nodes = declared ++ (firstMentions (declared.map Node.key) (endNames ends)).map Node.ofName
  /-- No node is declared twice. -/
  distinct : b.keys.Nodup
  edges : List.Forall₂ IsEdge (listed (field entries "edges")) b.edges
  /-- Both ends of every edge are nodes of the block. -/
  ends : ∀ e ∈ b.edges, e.tail ∈ b.keys ∧ e.head ∈ b.keys

mutual

/-- A graph of the given kind that declares what a mapping describes, at every level. -/
inductive Describes : GraphKind → List (Raw × Raw) → Graph → Prop
  | mk {kind : GraphKind} {entries : List (Raw × Raw)} {b : Block} {gs : List Graph}
    (block : b.IsDescribed kind entries)
    (subgraphs : DescribesAll (listed (field entries "subgraphs")) gs) :
    Describes kind entries (.mk b gs)

/-- Subgraphs for the items of a list, one for each in order. -/
inductive DescribesAll : List Raw → List Graph → Prop
  | nil : DescribesAll [] []
  | cons {item : Raw} {items : List Raw} {g : Graph} {gs : List Graph} {kind : GraphKind}
    (nested : IsNestedKind (entriesOf item) kind) (head : Describes kind (entriesOf item) g)
    (tail : DescribesAll items gs) : DescribesAll (item :: items) (g :: gs)

end

/-! ### Names and kinds -/

theorem nameOf_word {r : Raw} (hr : r.IsWord) : nameOf r = .ok (wordName r.plain) := by
  cases r <;> first | rfl | exact hr.elim

theorem wordName_isName {r : Raw} (hr : r.IsWord) : r.IsName (wordName r.plain) := by
  unfold wordName Id.of
  by_cases hid : isIdentifier r.plain.toList = true
  · rw [dif_pos hid]
    exact .id hr rfl
  · rw [dif_neg hid]
    exact .string hr (by simpa using hid)

/-- **The reader of names follows the rule for names.** -/
theorem nameOf_eq_ok {r : Raw} {name : Name} : nameOf r = .ok name ↔ r.IsName name := by
  constructor
  · intro h
    have hword : r.IsWord → r.IsName name := by
      intro hr
      rw [nameOf_word hr] at h
      cases h
      exact wordName_isName hr
    cases r with
    | null => cases h
    | bool _ => cases h
    | int n =>
      obtain ⟨m, hm, rfl⟩ := Outcome.map_eq_ok.1 h
      unfold Integer.of at hm
      split_ifs at hm
      cases hm
      exact .int ⟨n, _⟩
    | float x =>
      obtain ⟨y, hy, rfl⟩ := Outcome.map_eq_ok.1 h
      cases x <;> cases hy
      exact .double _
    | text s => exact hword trivial
    | list items => exact hword trivial
    | map entries => exact hword trivial
  · intro h
    cases h with
    | int n => simp [nameOf, Integer.of, n.inRange]
    | double x => rfl
    | @id _ x hr htext => rw [nameOf_word hr, wordName, htext, Id.of, dif_pos x.valid]
    | string hr hid => rw [nameOf_word hr, wordName, Id.of, dif_neg (by simp [hid])]

/-- A datum stands for one name at most. -/
theorem Raw.IsName.unique {r : Raw} {name other : Name} (h : r.IsName name) (h' : r.IsName other) :
    name = other :=
  Except.ok.inj ((nameOf_eq_ok.2 h).symm.trans (nameOf_eq_ok.2 h'))

theorem subgraphKind_spec (entries : List (Raw × Raw)) :
    IsNestedKind entries (subgraphKind entries) := by
  unfold subgraphKind field
  cases h : Raw.get? entries "cluster" with
  | none => exact .plain (by simp [h])
  | some r =>
    rw [Option.getD_some]
    split_ifs with htrue
    · exact .cluster h htrue
    · exact .plain fun r' hr' => by cases h.symm.trans hr'; simpa using htrue

/-- A missing end is no name, so the ends of an edge are those that its entries name. -/
theorem endsOf_spec {item : Raw} {ends : Name × Name} (h : endsOf (entriesOf item) = .ok ends) :
    IsEnds item ends := by
  unfold endsOf at h
  split at h
  · rename_i tail head htail hhead
    obtain ⟨n, hn, h⟩ := Outcome.bind_eq_ok.1 h
    obtain ⟨m, hm, h⟩ := Outcome.bind_eq_ok.1 h
    cases h
    constructor
    · rw [field, htail]
      exact nameOf_eq_ok.1 hn
    · rw [field, hhead]
      exact nameOf_eq_ok.1 hm
  · cases h

/-! ### Tables -/

theorem supersedes_dot {a : DotAttribute} {old : AttributeId} :
    Supersedes (.dot a) old ↔ .dot a = old := by
  simp [Supersedes, AttributeId.slot?]

theorem Table.fillEntry_eq_ok {entry : Raw × Raw} {t t' : Table} :
    (fillEntry entry).runOn t = (.ok (), t') ↔ ∃ attr v, attributeOf entry.1 = .ok attr ∧
      coerce attr entry.2 = .ok v ∧ t.add attr (.value v) = (.ok (), t') := by
  simp only [fillEntry, Changing.run_lift_bind_eq_ok, Changing.run_of]
  constructor
  · rintro ⟨attr, hattr, v, hv, hadd⟩
    exact ⟨attr, v, hattr, hv, hadd⟩
  · rintro ⟨attr, v, hattr, hv, hadd⟩
    exact ⟨attr, hattr, v, hv, hadd⟩

/-- Entries of attributes that a table does not have yet are put at its end. -/
theorem Table.fillEntries_entries {entries : List (Raw × Raw)} {t t' : Table}
    (hkeys : Raw.entriesDistinct entries = true)
    (hnew : ∀ d ∈ entries, ∀ a : DotAttribute, d.1 = .text a.name → ∀ e ∈ t.entries, .dot a ≠ e.1)
    (h : (entries.forM fillEntry).runOn t = (.ok (), t')) :
    ∃ kept, List.Forall₂ IsEntry entries kept ∧ t'.entries = t.entries ++ kept := by
  induction entries generalizing t with
  | nil =>
    cases h
    exact ⟨[], .nil, (List.append_nil _).symm⟩
  | cons d entries ih =>
    rw [Raw.entriesDistinct, Bool.and_eq_true, Bool.and_eq_true] at hkeys
    obtain ⟨t₁, hentry, h⟩ := Changing.run_forM_cons_eq_ok.1 h
    obtain ⟨attr, v, hattr, hv, hadd⟩ := fillEntry_eq_ok.1 hentry
    obtain ⟨a, ha, rfl⟩ := attributeOf_eq_ok hattr
    obtain ⟨-, text, htext, rfl⟩ := Table.add_eq_ok.1 hadd
    have hput : (t.put (.dot a) text).entries = t.entries ++ [(.dot a, text)] := by
      rw [put_entries, List.filter_eq_self.2]
      intro e he
      simpa [supersedes_dot] using hnew d List.mem_cons_self a ha e he
    have hrest : ∀ d' ∈ entries, ∀ a' : DotAttribute, d'.1 = .text a'.name →
        ∀ e ∈ (t.put (.dot a) text).entries, .dot a' ≠ e.1 := by
      intro d' hd' a' ha' e he
      rw [hput] at he
      rcases List.mem_append.1 he with he | he
      · exact hnew d' (List.mem_cons_of_mem d hd') a' ha' e he
      · rw [List.mem_singleton.1 he]
        rintro ⟨⟩
        -- the same attribute would be the same key
        have hsame := List.all_eq_true.1 hkeys.1.1 d' hd'
        rw [ha, ha'] at hsame
        simp [Raw.sameKey] at hsame
    obtain ⟨kept, hkept, hentries⟩ := ih hkeys.2 hrest h
    refine ⟨(.dot a, text) :: kept, .cons ⟨⟨a, ha, rfl⟩, v, hv, htext⟩ hkept, ?_⟩
    rw [hentries, hput, List.append_assoc, List.singleton_append]

theorem Table.fill_described {t t' : Table} {r : Raw} {what : String}
    (hr : r.hasDistinctKeys = true) (ht : t.entries = [])
    (h : (Table.fill r what).runOn t = (.ok (), t')) : IsTable r t' := by
  obtain ⟨entries, hmap, h⟩ := Changing.run_lift_bind_eq_ok.1 h
  obtain rfl := mapping_eq_ok hmap
  obtain ⟨kept, hkept, hentries⟩ := fillEntries_entries (entriesOf_distinct hr)
    (by simp [ht]) h
  rw [ht, List.nil_append] at hentries
  rwa [IsTable, hentries]

/-! ### Nodes -/

theorem firstMentions_append (keys : List String) (names more : List Name) :
    firstMentions keys (names ++ more) = firstMentions keys names ++
      firstMentions (keys ++ (firstMentions keys names).map Name.render) more := by
  induction names generalizing keys with
  | nil => simp [firstMentions]
  | cons name names ih =>
    rw [List.cons_append, firstMentions, firstMentions]
    split_ifs
    · exact ih keys
    · rw [ih]
      simp

/-- Every name that is mentioned is written like a key or is among the first mentions. -/
theorem mem_firstMentions (keys : List String) (names : List Name) {name : Name}
    (h : name ∈ names) : name.render ∈ keys ++ (firstMentions keys names).map Name.render := by
  induction names generalizing keys with
  | nil => exact absurd h List.not_mem_nil
  | cons n names ih =>
    rw [firstMentions]
    split_ifs with hkeys
    · rcases List.mem_cons.1 h with rfl | h
      · exact List.mem_append_left _ (List.contains_iff_mem.1 hkeys)
      · exact ih keys h
    · rw [List.map_cons, ← List.singleton_append, ← List.append_assoc]
      rcases List.mem_cons.1 h with rfl | h
      · exact List.mem_append_left _ (List.mem_append_right _ (List.mem_singleton_self _))
      · exact ih _ h

namespace Block

variable {b b' : Block}

theorem keys_append (b : Block) (nodes : List Node) :
    { b with nodes := b.nodes ++ nodes }.keys = b.keys ++ nodes.map Node.key := by
  simp [keys]

theorem ensureNode_eq (b : Block) (name : Name) :
    b.ensureNode name =
      { b with nodes := b.nodes ++ (firstMentions b.keys [name]).map Node.ofName } := by
  unfold ensureNode firstMentions
  split_ifs
  · simp [firstMentions]
  · simp [firstMentions]

theorem ensureNode_ensureNode_eq (b : Block) (tail head : Name) :
    (b.ensureNode tail).ensureNode head =
      { b with nodes := b.nodes ++ (firstMentions b.keys [tail, head]).map Node.ofName } := by
  have hkeys : (b.ensureNode tail).keys =
      b.keys ++ (firstMentions b.keys [tail]).map Name.render := by
    rw [ensureNode_eq, keys_append, List.map_map]
    rfl
  rw [ensureNode_eq, hkeys, ensureNode_eq, ← List.singleton_append (l := [head]),
    firstMentions_append, List.map_append, List.append_assoc]

theorem onTable_eq_ok {site : TableSite} {x : Changing Table Unit} :
    (onTable site x).runOn b = (.ok (), b') ↔ ∃ t t', b.table? site = some t ∧
      x.runOn t = (.ok (), t') ∧ b.setTable t' site = b' := by
  unfold onTable
  rw [Changing.run_of]
  cases b.table? site with
  | none => simp
  | some t =>
    cases hrun : x.runOn t
    simp [hrun]

/-- A node that is declared is put at the end, with its attributes. -/
theorem describeNode_eq {entry : Raw × Raw} (hentry : entry.2.hasDistinctKeys = true)
    (h : (describeNode entry).runOn b = (.ok (), b')) :
    ∃ n, IsNode entry n ∧ b' = { b with nodes := b.nodes ++ [n] } := by
  obtain ⟨name, hname, h⟩ := Changing.run_lift_bind_eq_ok.1 h
  obtain ⟨_, b₁, hadd, h⟩ := Changing.run_bind_eq_ok.1 h
  obtain ⟨t, t', ht, hfill, rfl⟩ := onTable_eq_ok.1 h
  rw [Changing.run_of] at hadd
  rw [table?, find?_addNode hadd] at ht
  obtain rfl : (Node.ofName name).attributes = t := Option.some.inj ht
  obtain ⟨hkey, rfl⟩ := addNode_eq_ok.1 hadd
  refine ⟨⟨name, t'⟩, ⟨nameOf_eq_ok.1 hname, Table.fill_described hentry rfl hfill⟩, ?_⟩
  -- no other node has the key of the new one
  have hold : b.nodes.map
      (fun n => if n.key == name.render then { n with attributes := t' } else n) = b.nodes := by
    refine (List.map_congr_left fun n hn => ?_).trans (List.map_id _)
    rw [if_neg]
    · rfl
    · intro heq
      exact hkey (List.mem_map.2 ⟨n, hn, beq_iff_eq.1 heq⟩)
  have hnew : ((Node.ofName name).key == name.render) = true := beq_self_eq_true _
  simp only [setTable, modifyNode, List.map_append, hold, List.map_cons, List.map_nil, hnew,
    if_true]
  rfl

theorem describeNodes_eq {entries : List (Raw × Raw)}
    (hentries : Raw.entriesDistinct entries = true)
    (h : (entries.forM describeNode).runOn b = (.ok (), b')) :
    ∃ declared, List.Forall₂ IsNode entries declared ∧
      b' = { b with nodes := b.nodes ++ declared } := by
  induction entries generalizing b with
  | nil =>
    cases h
    exact ⟨[], .nil, by rw [List.append_nil]⟩
  | cons entry entries ih =>
    rw [Raw.entriesDistinct, Bool.and_eq_true, Bool.and_eq_true] at hentries
    obtain ⟨b₁, hnode, h⟩ := Changing.run_forM_cons_eq_ok.1 h
    obtain ⟨n, hn, rfl⟩ := describeNode_eq hentries.1.2 hnode
    obtain ⟨declared, hdeclared, rfl⟩ := ih hentries.2 h
    refine ⟨n :: declared, .cons hn hdeclared, ?_⟩
    simp

/-! ### Edges -/

/-- An edge declares the ends that are missing, and is put at the end. -/
theorem describeEdge_eq {item : Raw} (hitem : item.hasDistinctKeys = true)
    (h : (describeEdge item).runOn b = (.ok (), b')) :
    ∃ ends e, IsEnds item ends ∧ IsEdge item e ∧ b' = { b with
      nodes := b.nodes ++ (firstMentions b.keys [ends.1, ends.2]).map Node.ofName
      edges := b.edges ++ [e] } := by
  obtain ⟨entries, hmap, h⟩ := Changing.run_lift_bind_eq_ok.1 h
  obtain rfl := mapping_eq_ok hmap
  obtain ⟨⟨tail, head⟩, hends, h⟩ := Changing.run_lift_bind_eq_ok.1 h
  obtain ⟨i, b₁, hlink, h⟩ := Changing.run_bind_eq_ok.1 h
  obtain ⟨t, t', ht, hfill, rfl⟩ := onTable_eq_ok.1 h
  cases hlink
  have hlast : (b.link tail head).edges[b.edges.length]? =
      some (Edge.between tail.render head.render) := by
    rw [link_edges]
    exact List.getElem?_concat_length
  rw [table?, hlast] at ht
  obtain rfl : (Edge.between tail.render head.render).attributes = t := Option.some.inj ht
  have hfield := field_distinct (entriesOf_distinct hitem) "attributes"
  refine ⟨(tail, head), ⟨tail.render, head.render, t'⟩, endsOf_spec hends,
    ⟨⟨_, endsOf_spec hends, rfl, rfl⟩, Table.fill_described hfield rfl hfill⟩, ?_⟩
  have hset : (b.edges ++ [Edge.between tail.render head.render]).modify b.edges.length
      (fun e => { e with attributes := t' }) = b.edges ++ [⟨tail.render, head.render, t'⟩] := by
    rw [List.modify_eq_take_drop]
    simp [Edge.between]
  rw [setTable, link_edges, hset, link, ensureNode_ensureNode_eq]

theorem describeEdges_eq {items : List Raw} (hitems : ∀ r ∈ items, r.hasDistinctKeys = true)
    (h : (items.forM describeEdge).runOn b = (.ok (), b')) :
    ∃ ends edges, List.Forall₂ IsEnds items ends ∧ List.Forall₂ IsEdge items edges ∧
      b' = { b with
        nodes := b.nodes ++ (firstMentions b.keys (endNames ends)).map Node.ofName
        edges := b.edges ++ edges } := by
  induction items generalizing b with
  | nil =>
    cases h
    exact ⟨[], [], .nil, .nil, by simp [endNames, firstMentions]⟩
  | cons item items ih =>
    obtain ⟨hitem, hrest⟩ := List.forall_mem_cons.1 hitems
    obtain ⟨b₁, hedge, h⟩ := Changing.run_forM_cons_eq_ok.1 h
    obtain ⟨ends₁, e, hends₁, he, rfl⟩ := describeEdge_eq hitem hedge
    obtain ⟨ends, edges, hends, hedges, rfl⟩ := ih hrest h
    refine ⟨ends₁ :: ends, e :: edges, .cons hends₁ hends, .cons he hedges, ?_⟩
    have hkeys : keys { b with
        nodes := b.nodes ++ (firstMentions b.keys [ends₁.1, ends₁.2]).map Node.ofName
        edges := b.edges ++ [e] } =
        b.keys ++ (firstMentions b.keys [ends₁.1, ends₁.2]).map Name.render := by
      simp [keys, Node.key, Node.ofName]
    rw [hkeys, endNames_cons, firstMentions_append]
    simp

/-- The ends of an edge are among the names that the edges mention. -/
theorem IsEdge.ends_mem {items : List Raw} {ends : List (Name × Name)} {edges : List Edge}
    (hends : List.Forall₂ IsEnds items ends) (hedges : List.Forall₂ IsEdge items edges) {e : Edge}
    (he : e ∈ edges) :
    ∃ tail ∈ endNames ends, ∃ head ∈ endNames ends,
      e.tail = tail.render ∧ e.head = head.render := by
  obtain ⟨item, hitem, ⟨⟨tail, head⟩, hitemEnds, htail, hhead⟩, -⟩ :=
    Outcome.exists_mem_of_forall₂ hedges.flip he
  obtain ⟨ends', hmem, hother⟩ := Outcome.exists_mem_of_forall₂ hends hitem
  obtain rfl := hitemEnds.tail.unique hother.tail
  obtain rfl := hitemEnds.head.unique hother.head
  have hboth : ∀ name ∈ [ends'.1, ends'.2], name ∈ endNames ends :=
    fun name hname => List.mem_flatMap.2 ⟨ends', hmem, hname⟩
  exact ⟨_, hboth _ (by simp), _, hboth _ (by simp), htail, hhead⟩

/-! ### Blocks -/

/-- **A new block that is filled declares what is described.** -/
theorem fill_described {entries : List (Raw × Raw)} (hentries : Raw.entriesDistinct entries = true)
    {name : Name} (hname : (field entries "name").IsName name) {kind : GraphKind}
    (h : (fill entries).runOn (empty name kind) = (.ok (), b)) : b.IsDescribed kind entries := by
  have hdistinct : b.keys.Nodup := by
    have hgrows := fill_leads entries _ (Reachable.of_empty name kind)
    rw [h] at hgrows
    exact hgrows.keys_nodup List.nodup_nil
  have hfield := field_distinct hentries
  obtain ⟨_, _, hown, h⟩ := Changing.run_bind_eq_ok.1 h
  obtain ⟨_, t₁, ⟨⟩, h₁, rfl⟩ := onTable_eq_ok.1 hown
  obtain ⟨_, _, hown, h⟩ := Changing.run_bind_eq_ok.1 h
  obtain ⟨_, t₂, ⟨⟩, h₂, rfl⟩ := onTable_eq_ok.1 hown
  obtain ⟨_, _, hown, h⟩ := Changing.run_bind_eq_ok.1 h
  obtain ⟨_, t₃, ⟨⟩, h₃, rfl⟩ := onTable_eq_ok.1 hown
  obtain ⟨nodes, hnodes, h⟩ := Changing.run_lift_bind_eq_ok.1 h
  obtain rfl := mapping_eq_ok hnodes
  obtain ⟨_, b₁, hb₁, h⟩ := Changing.run_bind_eq_ok.1 h
  obtain ⟨items, hitems, h⟩ := Changing.run_lift_bind_eq_ok.1 h
  obtain rfl := listOf_eq_ok hitems
  obtain ⟨declared, hdeclared, rfl⟩ :=
    describeNodes_eq (entriesOf_distinct (hfield "nodes")) hb₁
  obtain ⟨ends, edges, hends, hedges, rfl⟩ := describeEdges_eq (listed_distinct (hfield "edges")) h
  have hkeys : (declared ++ (firstMentions (declared.map Node.key)
      (endNames ends)).map Node.ofName).map Node.key =
      declared.map Node.key ++ (firstMentions (declared.map Node.key)
        (endNames ends)).map Name.render := by
    simp [Node.key, Node.ofName]
  exact {
    name := hname
    kind := rfl
    attributes := Table.fill_described (hfield _) rfl h₁
    nodeDefaults := Table.fill_described (hfield _) rfl h₂
    edgeDefaults := Table.fill_described (hfield _) rfl h₃
    nodes := ⟨declared, ends, hdeclared, hends, rfl⟩
    distinct := hdistinct
    edges := hedges
    ends := fun e he => by
      obtain ⟨tail, htail, head, hhead, htailKey, hheadKey⟩ := IsEdge.ends_mem hends hedges he
      have hmem := @mem_firstMentions (declared.map Node.key) (endNames ends)
      simp only [← hkeys] at hmem
      rw [htailKey, hheadKey]
      exact ⟨hmem htail, hmem hhead⟩ }

end Block

/-! ### Trees -/

section tree

variable {taken? : Option (List String)}

mutual

/-- A new graph that is filled, with its subgraphs, is described. -/
theorem populate_described {entries : List (Raw × Raw)}
    (hentries : Raw.entriesDistinct entries = true) {name : Name}
    (hname : (field entries "name").IsName name) {kind : GraphKind} {opened opened' : List Opened}
    {g : Graph}
    (h : (populate taken? entries).runOn ⟨opened, Graph.empty name kind⟩ = (.ok (), ⟨opened', g⟩)) :
    Describes kind entries g := by
  rw [populate] at h
  obtain ⟨_, d, hown, h⟩ := Changing.run_bind_eq_ok.1 h
  obtain ⟨b, hfill, rfl⟩ := Changing.run_within_eq_ok.1 hown
  have hb := Block.fill_described hentries hname hfill
  split at h
  · cases h
  · rename_i items hitems
    obtain ⟨left, hall, hleft⟩ := Changing.run_within_eq_ok.1 h
    cases hleft
    have : sizeOf items < sizeOf entries + 1 := by
      rw [listOf_eq_ok hitems]
      exact Nat.lt_succ_of_le (sizeOf_listed_field entries "subgraphs")
    obtain rfl := listOf_eq_ok hitems
    obtain ⟨gs, hgs, hbuilt⟩ :=
      describeAll_described (listed_distinct (field_distinct hentries _)) hall
    rw [hbuilt]
    exact .mk hb hgs
termination_by sizeOf entries + 1

/-- The graphs for the items of a list are put at the end. -/
theorem describeAll_described {items : List Raw}
    (hitems : ∀ r ∈ items, r.hasDistinctKeys = true) {d d' : Draft (List Graph)}
    (h : (describeAll taken? items).runOn d = (.ok (), d')) :
    ∃ gs, DescribesAll items gs ∧ d'.built = d.built ++ gs := by
  cases items with
  | nil =>
    rw [describeAll] at h
    cases h
    exact ⟨[], .nil, (List.append_nil _).symm⟩
  | cons item items =>
    have := sizeOf_item_lt item items
    rw [describeAll] at h
    obtain ⟨hitem, hrest⟩ := List.forall_mem_cons.1 hitems
    obtain ⟨g, d₁, hfirst, h⟩ := Changing.run_bind_eq_ok.1 h
    obtain ⟨kind, hkind, hg, hbuilt₁⟩ := describeSubgraph_described hitem hfirst
    obtain ⟨gs, hgs, hbuilt⟩ := describeAll_described hrest h
    exact ⟨g :: gs, .cons hkind hg hgs, by rw [hbuilt, hbuilt₁, List.append_assoc]; rfl⟩
termination_by sizeOf items

theorem describeSubgraph_described {item : Raw} (hitem : item.hasDistinctKeys = true)
    {d d' : Draft (List Graph)} {g : Graph}
    (h : (describeSubgraph taken? item).runOn d = (.ok g, d')) :
    ∃ kind, IsNestedKind (entriesOf item) kind ∧ Describes kind (entriesOf item) g ∧
      d'.built = d.built ++ [g] := by
  cases item with
  | map entries =>
    rw [describeSubgraph] at h
    split at h
    · cases h
    · rename_i r hr
      obtain ⟨name, hname, h⟩ := Changing.run_lift_bind_eq_ok.1 h
      obtain ⟨-, opened, hpopulate, rfl⟩ := openGraph_eq_ok.1 h
      have hfield : (field entries "name").IsName name := by
        rw [field, hr]
        exact nameOf_eq_ok.1 hname
      exact ⟨_, subgraphKind_spec entries, populate_described hitem hfield hpopulate, rfl⟩
  | _ =>
    unfold describeSubgraph at h
    cases h
termination_by sizeOf item + 1

end

end tree

/-- **A description that is accepted yields the graph that it describes**: a directed graph unless
it names another kind, with its tables, nodes, edges and subgraphs, at every level of nesting. -/
theorem describe_describes {taken? : Option (List String)} {r : Raw} {g : Graph}
    (hr : r.hasDistinctKeys = true) (h : (describe taken? r).1 = .ok g) :
    ∃ entries kind, r = .map entries ∧
      (Raw.get? entries "kind").getD (.text "digraph") = .text kind.name ∧
      Describes kind entries g := by
  replace h : ∃ left, (describeGraph taken? r).runOn ⟨[], []⟩ = (.ok g, left) :=
    ⟨_, Prod.ext h rfl⟩
  obtain ⟨left, h⟩ := h
  unfold describeGraph at h
  split at h
  · rename_i entries
    split at h
    · cases h
    · rename_i r' hr'
      obtain ⟨kind, hkind, h⟩ := Changing.run_lift_bind_eq_ok.1 h
      obtain ⟨name, hname, h⟩ := Changing.run_lift_bind_eq_ok.1 h
      obtain ⟨-, opened, hpopulate, -⟩ := openGraph_eq_ok.1 h
      have hfield : (field entries "name").IsName name := by
        rw [field, hr']
        exact nameOf_eq_ok.1 hname
      exact ⟨entries, kind, rfl, kindOf_eq_ok hkind, populate_described hr hfield hpopulate⟩
  · cases h

/-- **A description that is loaded is found in the store as the graph that it describes**, with a
registry of names or without. -/
theorem GraphStore.load_describes {s : GraphStore} {registryId? : Option Nat} {r : Raw}
    {id : GraphId} (hr : r.hasDistinctKeys = true) (h : (s.load registryId? r).1 = .ok id) :
    ∃ g entries kind, (s.load registryId? r).2.tree? id = some g ∧ r = .map entries ∧
      (Raw.get? entries "kind").getD (.text "digraph") = .text kind.name ∧
      Describes kind entries g := by
  obtain ⟨g, hdescribe, htree⟩ := load_tree h
  obtain ⟨entries, kind, hentries, hkind, hg⟩ := describe_describes hr hdescribe
  exact ⟨g, entries, kind, htree, hentries, hkind, hg⟩

/-- A cluster with a node. -/
def hallEntries : List (Raw × Raw) := [
  (.text "name", .text "hall"), (.text "cluster", .bool true),
  (.text "nodes", .map [(.text "press", .null)])]

/-- A graph with a node, an edge from a node that only it mentions, and the cluster. -/
def plantEntries : List (Raw × Raw) := [
  (.text "name", .text "plant"),
  (.text "attributes", .map [(.text "rankdir", .text "LR")]),
  (.text "nodes", .map [(.text "valve", .map [(.text "shape", .text "box")])]),
  (.text "edges", .list [.map [(.text "tail", .text "pump"), (.text "head", .text "valve")]]),
  (.text "subgraphs", .list [.map hallEntries])]

/-- The graph of this description. -/
def plantGraph : Graph :=
  .mk ⟨.id ⟨"plant", by decide⟩, .digraph,
      ⟨union [GraphKind.digraph.legal], [(.dot .rankdir, "\"LR\"")]⟩,
      Table.ofDot nodeAttributes, Table.ofDot edgeAttributes,
      [⟨.id ⟨"valve", by decide⟩, ⟨(Table.ofDot nodeAttributes).legal, [(.dot .shape, "\"box\"")]⟩⟩,
        .ofName (.id ⟨"pump", by decide⟩)], [.between "pump" "valve"]⟩
    [.mk { Block.empty (.id ⟨"hall", by decide⟩) .clusterSubgraph with
      nodes := [.ofName (.id ⟨"press", by decide⟩)] } []]

set_option maxRecDepth 4000 in
theorem describe_plant : (describe none (.map plantEntries)).1 = .ok plantGraph := by
  have hhall : describeSubgraph none (.map hallEntries) =
      .openGraph none (.id ⟨"hall", by decide⟩) .clusterSubgraph (do
        .onBlock (Block.fill hallEntries)
        .onSubgraphs (describeAll none [])) := by
    rw [describeSubgraph]
    simp only [populate]
    rfl
  have hplant : describeGraph none (.map plantEntries) =
      .openGraph none (.id ⟨"plant", by decide⟩) .digraph (do
        .onBlock (Block.fill plantEntries)
        .onSubgraphs (describeAll none [.map hallEntries])) := by
    simp only [describeGraph, populate]
    rfl
  rw [describe, hplant, describeAll, describeAll, hhall, describeAll]
  rfl

theorem GraphStore.load_plant :
    ∃ g entries kind, (GraphStore.empty.load none (.map plantEntries)).2.tree? 0 = some g ∧
      .map plantEntries = Raw.map entries ∧
      (Raw.get? entries "kind").getD (.text "digraph") = .text kind.name ∧
      Describes kind entries g := by
  have hload : (GraphStore.empty.load none (.map plantEntries)).1 = .ok 0 :=
    load_eq_ok.2 ⟨⟨_, describe_plant⟩, rfl⟩
  exact load_describes (by decide) hload

end DotWriter
