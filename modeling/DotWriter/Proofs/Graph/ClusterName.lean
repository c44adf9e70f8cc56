import DotWriter.Proofs.Document.Token
import DotWriter.Proofs.Graph.DisplayName

/-!
# The names of clusters

A renderer draws a subgraph as a cluster if its name begins with `cluster`, so a document puts the
prefix in front of the names that lack it.

* `Block.shownName` : the name that a document shows, made by the checks that all names pass;
* `Block.ShownAs` : what is promised of the name of a cluster;
* `Block.displayName_laws` : **every cluster is shown under a name that begins with the prefix and
  is shown as it is, and every other graph under its own name**.
-/

namespace DotWriter

namespace Name

/-- The name is written without quotes, by the rules of identifiers. -/
def IsIdentifier : Name → Prop
  | id _ => True
  | int _ | double _ | string _ => False

/-- The text that the name stands for begins like a cluster. -/
def BeginsLikeCluster (n : Name) : Prop := "cluster".toList <+: n.raw.toList

/-- The name with the prefix of clusters.  An identifier is checked once more, and every other name
becomes a string. -/
def addPrefix : Name → Except Fault Name
  | id x => id <$> Id.of ("cluster_" ++ x.name)
  | n => .ok (string ("cluster_" ++ n.raw))

theorem raw_of_isNumber {n : Name} (h : n.IsNumber) : n.raw = n.render := by
  cases n with
  | string s => exact h.elim
  | _ => rfl

/-- Numbers are written without letters. -/
theorem not_isNumber_of_beginsLikeCluster {n : Name} (h : n.BeginsLikeCluster) : ¬ n.IsNumber := by
  intro hnumber
  have hletter : 'c' ∈ n.raw.toList := h.subset (by decide)
  rw [raw_of_isNumber hnumber] at hletter
  exact absurd (isNumberText_render hnumber 'c' hletter) (by decide)

/-- The prefix has the letters of identifiers. -/
theorem isIdentifier_prefixed (x : Id) : isIdentifier ("cluster_" ++ x.name).toList = true := by
  rw [String.toList_append]
  exact isIdentifier_append (by decide) x.valid

/-- No name is refused the prefix. -/
theorem addPrefix_spec (n : Name) : ∃ m, n.addPrefix = .ok m ∧ ¬ m.IsNumber ∧
    (m.IsIdentifier ↔ n.IsIdentifier) ∧ m.raw = "cluster_" ++ n.raw ∧ m.render = n.prefixed := by
  cases n with
  | id x =>
    refine ⟨id ⟨"cluster_" ++ x.name, isIdentifier_prefixed x⟩, ?_, not_false, .rfl, rfl, rfl⟩
    rw [addPrefix, Id.of, dif_pos (isIdentifier_prefixed x)]
    rfl
  | int n => exact ⟨string ("cluster_" ++ (int n).raw), rfl, not_false, .rfl, rfl, rfl⟩
  | double x => exact ⟨string ("cluster_" ++ (double x).raw), rfl, not_false, .rfl, rfl, rfl⟩
  | string s => exact ⟨string ("cluster_" ++ (string s).raw), rfl, not_false, .rfl, rfl, rfl⟩

theorem beginsLikeCluster_of_raw {m n : Name} (h : m.raw = "cluster_" ++ n.raw) :
    m.BeginsLikeCluster := by
  have hword : "cluster".toList <+: "cluster_".toList := by decide
  rw [BeginsLikeCluster, h, String.toList_append]
  exact hword.trans (List.prefix_append _ _)

end Name

namespace Block

/-- The name that a document shows, as the checks of names let it through. -/
def shownName (b : Block) : Except Fault Name :=
  if b.takesPrefix then b.name.addPrefix else .ok b.name

/-- A cluster is shown under the name `m`. -/
structure ShownAs (b : Block) (m : Name) : Prop where
  /-- No check refuses the name. -/
  checked : b.shownName = .ok m
  written : b.displayName = m.render
  /-- The name is an identifier or a string. -/
  not_number : ¬ m.IsNumber
  /-- Identifiers stay what they are, and all other names are shown as strings. -/
  bare : m.IsIdentifier ↔ b.name.IsIdentifier
  begins : m.BeginsLikeCluster
  kept : b.name.BeginsLikeCluster → m.raw = b.name.raw
  added : ¬ b.name.BeginsLikeCluster → m.raw = "cluster_" ++ b.name.raw
  /-- The prefix is put in front of a name once only. -/
  again : displayName { b with name := m } = b.displayName

theorem takesPrefix_eq_true_iff {b : Block} :
    b.takesPrefix = true ↔ b.kind.isCluster = true ∧ ¬ b.name.BeginsLikeCluster := by
  rw [takesPrefix, Bool.and_eq_true, Bool.not_eq_true', ← Bool.not_eq_true,
    List.isPrefixOf_iff_prefix]
  rfl

theorem displayName_eq_render {b : Block} (h : ¬ b.takesPrefix = true) :
    b.displayName = b.name.render := by
  rw [displayName_eq, if_neg h]

/-- A name that begins like a cluster is shown as it is. -/
theorem displayName_of_begins {b : Block} (h : b.name.BeginsLikeCluster) :
    b.displayName = b.name.render :=
  displayName_eq_render fun htakes => (takesPrefix_eq_true_iff.1 htakes).2 h

theorem exists_shownAs {b : Block} (hcluster : b.kind.isCluster = true) : ∃ m, b.ShownAs m := by
  by_cases hbegins : b.name.BeginsLikeCluster
  · have htakes : ¬ b.takesPrefix = true := fun h => (takesPrefix_eq_true_iff.1 h).2 hbegins
    exact ⟨b.name, if_neg htakes, displayName_eq_render htakes,
      Name.not_isNumber_of_beginsLikeCluster hbegins, .rfl, hbegins, fun _ => rfl,
      fun h => absurd hbegins h, rfl⟩
  · obtain ⟨m, hchecked, hnumber, hbare, hraw, hrender⟩ := b.name.addPrefix_spec
    have htakes : b.takesPrefix = true := takesPrefix_eq_true_iff.2 ⟨hcluster, hbegins⟩
    have hwritten : b.displayName = m.render := by
      rw [displayName_eq, if_pos htakes, hrender]
    have hm := Name.beginsLikeCluster_of_raw hraw
    refine ⟨m, (if_pos htakes).trans hchecked, hwritten, hnumber, hbare, hm,
      fun h => absurd h hbegins, fun _ => hraw, ?_⟩
    rw [hwritten]
    exact displayName_of_begins (b := { b with name := m }) hm

/-- **Every cluster is shown under a name that begins with the prefix and is shown as it is**: its
own name, or that with the prefix in front of its text.  **Every other graph is shown under its own
name.** -/
theorem displayName_laws (b : Block) :
    (b.kind.isCluster = true → ∃ m, b.ShownAs m) ∧
      (b.kind.isCluster = false → b.displayName = b.name.render) := by
  refine ⟨exists_shownAs, fun h => displayName_eq_render fun htakes => ?_⟩
  rw [(takesPrefix_eq_true_iff.1 htakes).1] at h
  cases h

/-- A graph of the number seven. -/
def seventh (kind : GraphKind) : Block := empty (.int ⟨7, by decide⟩) kind

/-- A cluster of a number is shown under a string, and another graph under the number. -/
theorem seventh_displayName :
    (seventh .clusterSubgraph).kind.isCluster = true ∧
      (∃ m, (seventh .clusterSubgraph).ShownAs m ∧ m.raw = "cluster_7") ∧
      (seventh .subgraph).kind.isCluster = false ∧ (seventh .subgraph).displayName = "7" := by
  have hbegins : ¬ (seventh .clusterSubgraph).name.BeginsLikeCluster := by
    unfold Name.BeginsLikeCluster
    decide
  obtain ⟨m, hm⟩ := (displayName_laws (seventh .clusterSubgraph)).1 rfl
  exact ⟨rfl, ⟨m, hm, hm.added hbegins⟩, rfl, (displayName_laws (seventh .subgraph)).2 rfl⟩

end Block

end DotWriter
