import DotWriter.Proofs.Document.Token
import DotWriter.Proofs.Graph.DisplayName
import DotWriter.Proofs.Value.Quoted

/-!
# Which names are one node

A document may write one identifier bare or between quotes.  A graph keeps its nodes apart by the
way their names are written, so it may declare one identifier twice.

* `denoted` : the identifier that a written name denotes;
* `Name.denoted_eq_iff` : names that are written differently denote one identifier exactly if one of
  them is bare and the other one is its text as a string;
* `GraphStore.run_keepsNodesApart` : **every graph keeps apart the names that are written
  differently, and no others**.
-/

namespace DotWriter

/-- The text between quotes, where a quote with a backslash in front is read as a quote. -/
def readQuotes : List Char → List Char
  | [] => []
  | '\\' :: '"' :: cs => '"' :: readQuotes cs
  | c :: cs => c :: readQuotes cs

/-- The identifier that a written name denotes: what stands between its quotes, or the name itself
if it is bare. -/
def denoted (written : String) : List Char :=
  match written.toList with
  | '"' :: cs => readQuotes cs.dropLast
  | cs => cs

/-! ### Quoted names -/

theorem readQuotes_cons {c : Char} {cs : List Char} (h : c = '\\' → cs.head? ≠ some '"') :
    readQuotes (c :: cs) = c :: readQuotes cs := by
  conv_lhs => unfold readQuotes
  split
  · rename_i heq
    cases heq
  · rename_i heq
    obtain ⟨rfl, rfl⟩ := List.cons.inj heq
    exact absurd rfl (h rfl)
  · rename_i heq
    obtain ⟨rfl, rfl⟩ := List.cons.inj heq
    rfl

/-- What is escaped never begins with a quote. -/
theorem head?_flatMap_quoteChar (cs : List Char) : (cs.flatMap quoteChar).head? ≠ some '"' := by
  cases cs with
  | nil => simp
  | cons c cs =>
    rw [List.flatMap_cons]
    unfold quoteChar
    split_ifs with hquote hline <;> simp [hquote]

/-- Escaping is undone, but for line ends. -/
theorem readQuotes_flatMap_quoteChar (cs : List Char) :
    readQuotes (cs.flatMap quoteChar) = replaceChar '\n' ['\\', 'n'] cs := by
  induction cs with
  | nil => rfl
  | cons c cs ih =>
    rw [List.flatMap_cons, replaceChar, List.flatMap_cons, ← replaceChar, ← ih]
    by_cases hquote : c = '"'
    · subst hquote
      simp [quoteChar, readQuotes]
    by_cases hline : c = '\n'
    · subst hline
      have hescape : ∀ ds, readQuotes ('\\' :: 'n' :: ds) = '\\' :: 'n' :: readQuotes ds := by
        intro ds
        rw [readQuotes_cons (by simp), readQuotes_cons (by simp)]
      simp [quoteChar, hescape]
    · -- a backslash of the text itself stands in front of what is escaped
      have hnext := readQuotes_cons (c := c) fun _ => head?_flatMap_quoteChar cs
      simp [quoteChar, hquote, hline, hnext]

theorem denoted_quoted (s : String) :
    denoted (quoted s) = replaceChar '\n' ['\\', 'n'] s.toList := by
  rw [denoted, quoted, String.toList_ofList, quotedChars]
  simp [readQuotes_flatMap_quoteChar]

/-- Line ends may as well be escaped first. -/
theorem flatMap_quoteChar_eq_replaceChar (cs : List Char) :
    cs.flatMap quoteChar = replaceChar '"' ['\\', '"'] (replaceChar '\n' ['\\', 'n'] cs) := by
  rw [replaceChar, replaceChar, List.flatMap_assoc]
  congr 1
  funext c
  by_cases hquote : c = '"'
  · simp [quoteChar, hquote]
  by_cases hline : c = '\n'
  · simp [quoteChar, hline]
  · simp [quoteChar, hquote, hline]

/-- Strings that denote one identifier are written alike. -/
theorem quoted_eq_of_denoted_eq {s t : String} (h : denoted (quoted s) = denoted (quoted t)) :
    quoted s = quoted t := by
  rw [denoted_quoted, denoted_quoted] at h
  rw [quoted_eq_iff, flatMap_quoteChar_eq_replaceChar, flatMap_quoteChar_eq_replaceChar, h]

theorem replaceChar_of_not_mem {old : Char} {new cs : List Char} (h : old ∉ cs) :
    replaceChar old new cs = cs := by
  induction cs with
  | nil => rfl
  | cons c cs ih =>
    rw [List.mem_cons, not_or] at h
    obtain ⟨hc, hcs⟩ := h
    rw [replaceChar, List.flatMap_cons, if_neg (Ne.symm hc), ← replaceChar, ih hcs]
    rfl

/-- A text without backslashes comes from a text without line ends. -/
theorem eq_of_replaceChar_eq {cs ds : List Char} (hds : '\\' ∉ ds)
    (h : replaceChar '\n' ['\\', 'n'] cs = ds) : cs = ds := by
  have hline : '\n' ∉ cs := by
    intro hmem
    apply hds
    rw [← h, replaceChar]
    exact List.mem_flatMap.2 ⟨'\n', hmem, by simp⟩
  rw [← h, replaceChar_of_not_mem hline]

/-! ### Names -/

namespace Name

/-- The name is written without quotes. -/
def IsBare : Name → Prop
  | id _ | int _ | double _ => True
  | string _ => False

/-- The characters that set a string apart do not occur in a bare name. -/
theorem not_mem_of_isBare {n : Name} (h : n.IsBare) {c : Char} (hc : c ∈ ['"', '\\', '\n']) :
    c ∉ n.render.toList := by
  have hnumber : n.IsNumber → c ∉ n.render.toList := by
    intro hn hmem
    have hchar := isNumberText_render hn c hmem
    simp only [List.mem_cons, List.mem_nil_iff, or_false] at hc
    rcases hc with rfl | rfl | rfl <;> exact absurd hchar (by decide)
  cases n with
  | id x =>
    intro hmem
    have hchar := (isBareChar_of_isIdentifier x.valid).2 c hmem
    simp only [List.mem_cons, List.mem_nil_iff, or_false] at hc
    rcases hc with rfl | rfl | rfl <;> exact absurd hchar (by decide)
  | int n => exact hnumber trivial
  | double x => exact hnumber trivial
  | string s => exact h.elim

/-- A bare name denotes itself. -/
theorem denoted_of_isBare {n : Name} (h : n.IsBare) : denoted n.render = n.render.toList := by
  unfold denoted
  split
  · rename_i cs heq
    exact absurd (heq ▸ List.mem_cons_self) (not_mem_of_isBare h (by simp))
  · rfl

/-- A string denotes what a bare name denotes only if it is the text of that name. -/
theorem denoted_eq_string {m : Name} (hm : m.IsBare) {s : String} :
    denoted m.render = denoted (string s).render ↔ string s = string m.render := by
  have hs : denoted (string s).render = replaceChar '\n' ['\\', 'n'] s.toList := denoted_quoted s
  rw [denoted_of_isBare hm, hs]
  constructor
  · intro h
    have htext := eq_of_replaceChar_eq (not_mem_of_isBare hm (by simp)) h.symm
    rw [String.toList_inj.1 htext]
  · intro h
    cases h
    rw [replaceChar_of_not_mem (not_mem_of_isBare hm (by simp))]

/-- **Names that are written differently denote one identifier exactly if one of them is bare and
the other one is its text as a string.** -/
theorem denoted_eq_iff {m n : Name} (hne : m.render ≠ n.render) :
    denoted m.render = denoted n.render ↔
      (m.IsBare ∧ n = .string m.render) ∨ (n.IsBare ∧ m = .string n.render) := by
  have hshape : ∀ k : Name, k.IsBare ∨ ∃ s, k = string s := by
    intro k
    cases k <;> simp [IsBare]
  constructor
  · intro h
    rcases hshape m with hm | ⟨s, rfl⟩ <;> rcases hshape n with hn | ⟨t, rfl⟩
    · rw [denoted_of_isBare hm, denoted_of_isBare hn] at h
      exact absurd (String.toList_inj.1 h) hne
    · exact .inl ⟨hm, (denoted_eq_string hm).1 h⟩
    · exact .inr ⟨hn, (denoted_eq_string hn).1 h.symm⟩
    · exact absurd (quoted_eq_of_denoted_eq h) hne
  · rintro (⟨hm, hn⟩ | ⟨hn, hm⟩)
    · subst hn
      exact (denoted_eq_string hm).2 rfl
    · subst hm
      exact ((denoted_eq_string hn).2 rfl).symm

end Name

/-! ### Graphs -/

namespace Block

/-- A graph keeps its nodes apart by the way their names are written. -/
structure KeepsNodesApart (b : Block) : Prop where
  /-- Different entries are written differently. -/
  distinct : b.keys.Nodup
  /-- They denote one identifier exactly if one is bare and the other one its text as a string. -/
  denoted_eq_iff : ∀ (i j : Nat) (m n : Node), b.nodes[i]? = some m → b.nodes[j]? = some n →
    i ≠ j → (denoted m.key = denoted n.key ↔
      (m.name.IsBare ∧ n.name = .string m.key) ∨ (n.name.IsBare ∧ m.name = .string n.key))
  /-- A new node is refused exactly if one is written like it. -/
  refused_iff : ∀ name : Name,
    (∃ f, b.addNode name = (.error f, b)) ↔ ∃ n ∈ b.nodes, n.key = name.render
  /-- An end of an edge is found exactly if a node is written like it; otherwise it is declared. -/
  found_iff : ∀ (d : Datum) (name : Name), Name.of d = .ok name →
    ∃ b', b.reachEnd (.named d) = .ok (name.render, b') ∧
      (b' = b ↔ ∃ n ∈ b.nodes, n.key = name.render)

theorem mem_keys {b : Block} {key : String} : key ∈ b.keys ↔ ∃ n ∈ b.nodes, n.key = key :=
  List.mem_map

theorem addNode_refused_iff (b : Block) (name : Name) :
    (∃ f, b.addNode name = (.error f, b)) ↔ name.render ∈ b.keys := by
  unfold addNode
  split_ifs with h
  · simpa using h
  · simpa using h

theorem ensureNode_eq_self_iff (b : Block) (name : Name) :
    b.ensureNode name = b ↔ name.render ∈ b.keys := by
  unfold ensureNode
  split_ifs with h
  · simpa using h
  · have hmem : name.render ∉ b.keys := by simpa using h
    refine ⟨fun heq => absurd (congrArg Block.nodes heq) ?_, fun hkey => absurd hkey hmem⟩
    simp

theorem Reachable.keepsNodesApart {b : Block} (h : b.Reachable) : b.KeepsNodesApart := by
  refine ⟨h.keys_nodup, fun i j m n hm hn hij => Name.denoted_eq_iff fun hkey => hij ?_,
    fun name => ?_, fun d name hd => ⟨b.ensureNode name, ?_, ?_⟩⟩
  · -- nodes that are written alike are one entry
    have hi : b.keys[i]? = some m.key := by rw [keys, List.getElem?_map, hm, Option.map_some]
    have hj : b.keys[j]? = some n.key := by rw [keys, List.getElem?_map, hn, Option.map_some]
    have hlt : i < b.keys.length := (List.getElem?_eq_some_iff.1 hi).1
    exact (List.getElem?_inj hlt h.keys_nodup).1 (by rw [hi, hj]; exact congrArg some hkey)
  · rw [addNode_refused_iff, mem_keys]
  · rw [reachEnd, hd]
    rfl
  · rw [ensureNode_eq_self_iff, mem_keys]

end Block

namespace GraphStore

/-- **Every graph keeps apart the names that are written differently, and no others**, whatever was
done to the store before. -/
theorem run_keepsNodesApart (calls : List Call) {p : StoredGraph} (hp : p ∈ (run calls).graphs) :
    p.block.KeepsNodesApart :=
  ((run_sound calls).graph p hp).block.keepsNodesApart

/-- A graph with a node `shaft` and a node of the string `shaft`. -/
def twiceDeclaredCalls : List Call := [
  .create none (.raw (.text "mill")) .digraph, .addNode 0 (.raw (.text "shaft")),
  .addNode 0 (.value (.string "shaft"))]

/-- The graph of these calls. -/
def twiceDeclared : StoredGraph :=
  ⟨{ Block.empty (.id ⟨"mill", by decide⟩) .digraph with
    nodes := [Node.ofName (.id ⟨"shaft", by decide⟩), Node.ofName (.string "shaft")] }, none, []⟩

theorem twiceDeclared_denoted : twiceDeclared ∈ (run twiceDeclaredCalls).graphs ∧
    denoted "shaft" = denoted "\"shaft\"" := by
  have hmem : twiceDeclared ∈ (run twiceDeclaredCalls).graphs := List.mem_singleton_self _
  have hiff := (run_keepsNodesApart twiceDeclaredCalls hmem).denoted_eq_iff 0 1 _ _ rfl rfl
    (by decide)
  exact ⟨hmem, hiff.2 (.inl ⟨trivial, rfl⟩)⟩

/-- A graph may have two nodes of one identifier. -/
theorem denoted_not_distinct :
    ¬ ∀ (calls : List Call), ∀ p ∈ (run calls).graphs, ∀ (i j : Nat) (m n : Node),
      p.block.nodes[i]? = some m → p.block.nodes[j]? = some n →
        denoted m.key = denoted n.key → i = j := by
  intro h
  have heq := h twiceDeclaredCalls twiceDeclared (List.mem_singleton_self _) 0 1 _ _ rfl rfl rfl
  exact absurd heq (by decide)

end GraphStore

end DotWriter
