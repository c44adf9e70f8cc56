import DotWriter.Proofs.Graph.Run
import DotWriter.Proofs.Value.Text

/-!
# Names that documents show

A registry keeps the names of graphs apart, but a document shows a cluster with a prefix, and turns
the name into a string unless it is an identifier.

* `Name.prefixed` : the name with the prefix, as a document shows it;
* `Clash` : the two ways in which graphs of different names are shown alike;
* `Block.displayName_eq_iff` : there are no others;
* `run_displayName_eq_iff` : **two registered graphs are shown under one name exactly if they
  clash**.
-/

namespace DotWriter

namespace Name

/-- The name is a number. -/
def IsNumber : Name → Prop
  | int _ | double _ => True
  | id _ | string _ => False

/-- The name with the prefix of clusters, as a document shows it. -/
def prefixed : Name → String
  | id x => "cluster_" ++ x.name
  | name => quoted ("cluster_" ++ name.raw)

theorem isNumberText_render {n : Name} (h : n.IsNumber) : IsNumberText n.render.toList := by
  cases n with
  | int n => exact isNumberText_int n.val
  | double x => exact isNumberText_fixed x
  | id x => exact h.elim
  | string s => exact h.elim

theorem prefixed_of_isNumber {n : Name} (h : n.IsNumber) :
    n.prefixed = quoted ("cluster_" ++ n.render) := by
  cases n with
  | int n => rfl
  | double x => rfl
  | id x => exact h.elim
  | string s => exact h.elim

/-- An identifier with the prefix is no string. -/
theorem id_prefixed_ne_quoted (x : Id) (s : String) : (id x).prefixed ≠ quoted s := by
  intro h
  have := congrArg String.toList h
  simp [prefixed, quoted, quotedChars] at this

theorem id_prefixed_inj {x y : Id} (h : (id x).prefixed = (id y).prefixed) : x.name = y.name := by
  have := congrArg String.toList h
  simpa [prefixed, String.toList_inj] using this

theorem number_prefixed_inj {m n : Name} (hm : m.IsNumber) (hn : n.IsNumber)
    (h : m.prefixed = n.prefixed) : m.render = n.render := by
  rw [prefixed_of_isNumber hm, prefixed_of_isNumber hn, quoted_append_eq_iff, quoted_eq_iff,
    flatMap_quoteChar_of_isNumberText (isNumberText_render hm),
    flatMap_quoteChar_of_isNumberText (isNumberText_render hn)] at h
  exact String.toList_inj.1 h

theorem number_prefixed_eq_string {m : Name} (hm : m.IsNumber) {s : String} :
    m.prefixed = (string s).prefixed ↔ string s = string m.render := by
  have hs : (string s).prefixed = quoted ("cluster_" ++ s) := rfl
  rw [prefixed_of_isNumber hm, hs, quoted_append_eq_iff, quoted_eq_iff,
    flatMap_quoteChar_of_isNumberText (isNumberText_render hm)]
  constructor
  · intro h
    rw [String.toList_inj.1 (flatMap_quoteChar_eq_number (isNumberText_render hm) h.symm)]
  · intro h
    cases h
    exact (flatMap_quoteChar_of_isNumberText (isNumberText_render hm)).symm

/-- Two names of graphs look alike with the prefix only if one is a number and the other one is its
text as a string. -/
theorem prefixed_eq_iff {m n : Name} (hne : m.render ≠ n.render) :
    m.prefixed = n.prefixed ↔
      (m.IsNumber ∧ n = .string m.render) ∨ (n.IsNumber ∧ m = .string n.render) := by
  have hshape : ∀ k : Name, (∃ x, k = id x) ∨ k.IsNumber ∨ ∃ s, k = string s := by
    intro k
    cases k <;> simp [IsNumber]
  constructor
  · intro h
    -- of the nine pairs of shapes, only a number and a string can be shown alike
    rcases hshape m with ⟨x, rfl⟩ | hm | ⟨s, rfl⟩ <;> rcases hshape n with ⟨y, rfl⟩ | hn | ⟨t, rfl⟩
    · exact absurd (id_prefixed_inj h) hne
    · exact absurd (prefixed_of_isNumber hn ▸ h) (id_prefixed_ne_quoted x _)
    · exact absurd h (id_prefixed_ne_quoted x _)
    · exact absurd (prefixed_of_isNumber hm ▸ h.symm) (id_prefixed_ne_quoted y _)
    · exact absurd (number_prefixed_inj hm hn h) hne
    · exact .inl ⟨hm, (number_prefixed_eq_string hm).1 h⟩
    · exact absurd h.symm (id_prefixed_ne_quoted y _)
    · exact .inr ⟨hn, (number_prefixed_eq_string hn).1 h.symm⟩
    · exact absurd (quoted_append_eq_iff.1 h) hne
  · rintro (⟨hm, hn⟩ | ⟨hn, hm⟩)
    · subst hn
      exact (number_prefixed_eq_string hm).2 rfl
    · subst hm
      exact ((number_prefixed_eq_string hn).2 rfl).symm

end Name

namespace Block

/-- Whether a document shows the graph with the prefix of clusters. -/
def takesPrefix (b : Block) : Bool :=
  b.kind.isCluster && !"cluster".toList.isPrefixOf b.name.raw.toList

theorem displayName_eq (b : Block) :
    b.displayName = if b.takesPrefix then b.name.prefixed else b.name.render := by
  unfold displayName takesPrefix
  cases b.kind.isCluster with
  | false => rfl
  | true =>
    cases "cluster".toList.isPrefixOf b.name.raw.toList with
    | true => rfl
    | false => cases b.name <;> rfl

/-- Two graphs of different names that are shown alike. -/
inductive Clash (b c : Block) : Prop
  /-- The one gets the prefix, and the other one is shown with a name that has it already. -/
  | prefixed (hb : b.takesPrefix = true) (hc : c.takesPrefix = false)
    (h : c.name.render = b.name.prefixed)
  /-- Both get the prefix, which makes a string of a number. -/
  | number (hb : b.takesPrefix = true) (hc : c.takesPrefix = true) (hn : b.name.IsNumber)
    (h : c.name = .string b.name.render)

/-- **Graphs of different names are shown alike exactly if they clash.** -/
theorem displayName_eq_iff {b c : Block} (hne : b.name.render ≠ c.name.render) :
    b.displayName = c.displayName ↔ Clash b c ∨ Clash c b := by
  rw [displayName_eq, displayName_eq]
  constructor
  · intro h
    cases hb : b.takesPrefix <;> cases hc : c.takesPrefix <;> simp only [hb, hc] at h
    · exact absurd h hne
    · exact .inr (.prefixed hc hb h)
    · exact .inl (.prefixed hb hc h.symm)
    · rcases (Name.prefixed_eq_iff hne).1 h with ⟨hn, heq⟩ | ⟨hn, heq⟩
      · exact .inl (.number hb hc hn heq)
      · exact .inr (.number hc hb hn heq)
  · rintro ((⟨hb, hc, h⟩ | ⟨hb, hc, hn, h⟩) | (⟨hc, hb, h⟩ | ⟨hc, hb, hn, h⟩)) <;>
      simp only [hb, hc]
    · exact h.symm
    · exact (Name.prefixed_eq_iff hne).2 (.inl ⟨hn, h⟩)
    · exact h
    · exact (Name.prefixed_eq_iff hne).2 (.inr ⟨hn, h⟩)

end Block

namespace GraphStore

/-- Entries of one registry that refer to different graphs have different names. -/
theorem Sound.key_ne {s : GraphStore} (hs : s.Sound) {r : Registry} (hr : r ∈ s.registries)
    {e f : String × GraphId} (he : e ∈ r.entries) (hf : f ∈ r.entries) (hne : e.2 ≠ f.2) :
    e.1 ≠ f.1 := by
  intro hkey
  exact hne (congrArg Prod.snd (List.inj_on_of_nodup_map (hs.distinct r hr) he hf hkey))

/-- **Two registered graphs are shown under one name exactly if they clash**, whatever was done to
the store before. -/
theorem run_displayName_eq_iff (calls : List Call) {r : Registry}
    (hr : r ∈ (run calls).registries) {e f : String × GraphId} (he : e ∈ r.entries)
    (hf : f ∈ r.entries) (hne : e.2 ≠ f.2) :
    ∃ p q, (run calls).graphs[e.2]? = some p ∧ (run calls).graphs[f.2]? = some q ∧
      (p.block.displayName = q.block.displayName ↔
        Block.Clash p.block q.block ∨ Block.Clash q.block p.block) := by
  have hs := run_sound calls
  obtain ⟨p, hp, hpn⟩ := hs.registered r hr e he
  obtain ⟨q, hq, hqn⟩ := hs.registered r hr f hf
  refine ⟨p, q, hp, hq, Block.displayName_eq_iff ?_⟩
  rw [hpn, hqn]
  exact hs.key_ne hr he hf hne

/-- A cluster of the name `a` and a subgraph of the name `cluster_a`, in one registry. -/
def clashingCalls : List Call := [
  .addRegistry, .create (some 0) (.raw (.text "a")) .clusterSubgraph,
  .create (some 0) (.raw (.text "cluster_a")) .subgraph]

theorem mem_clashing_registries :
    ⟨[("a", 0), ("cluster_a", 1)]⟩ ∈ (run clashingCalls).registries :=
  List.mem_singleton_self _

theorem clashing_clash : ∃ p q, (run clashingCalls).graphs[0]? = some p ∧
    (run clashingCalls).graphs[1]? = some q ∧
      (Block.Clash p.block q.block ∨ Block.Clash q.block p.block) := by
  obtain ⟨p, q, hp, hq, hiff⟩ := run_displayName_eq_iff clashingCalls mem_clashing_registries
    (e := ("a", 0)) (f := ("cluster_a", 1)) (by simp) (by simp) (by decide)
  refine ⟨p, q, hp, hq, hiff.1 ?_⟩
  cases hp
  cases hq
  rfl

/-- A registry does not keep apart the names that a document shows. -/
theorem displayName_not_distinct :
    ¬ ∀ (calls : List Call), ∀ r ∈ (run calls).registries, ∀ e ∈ r.entries, ∀ f ∈ r.entries,
      ∀ p q, (run calls).graphs[e.2]? = some p → (run calls).graphs[f.2]? = some q →
        e.2 ≠ f.2 → p.block.displayName ≠ q.block.displayName := by
  intro h
  have := h clashingCalls _ mem_clashing_registries ("a", 0) (by simp) ("cluster_a", 1) (by simp)
    _ _ rfl rfl (by decide)
  exact this rfl

end GraphStore

end DotWriter
