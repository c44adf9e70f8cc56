import DotWriter.Proofs.Attribute.Check
import DotWriter.Proofs.Value.Alphabet

/-!
# Values between quotes

Apart from strings and labels, the text of a value is put between double quotes as it is.

* `IsUnbroken` : a text that can stand between double quotes, without quotes and line ends;
* `checkValue_unbroken_iff` : **what an attribute keeps for a value is one quoted string exactly if
  the names that the value takes over are unbroken**.

Ports, layers and the node of a view port are taken over without a look at their quotes.
-/

namespace DotWriter

/-- A text without double quotes and line ends. -/
def IsUnbroken (cs : List Char) : Prop := ∀ c ∈ cs, c ≠ '"' ∧ c ≠ '\n'

instance (cs : List Char) : Decidable (IsUnbroken cs) :=
  decidable_of_iff (cs.all (fun c => c ≠ '"' ∧ c ≠ '\n') = true) (by simp [IsUnbroken])

theorem isValueChar_unbroken {c : Char} (h : isValueChar c = true) : c ≠ '"' ∧ c ≠ '\n' := by
  constructor <;> rintro rfl <;> exact absurd h (by decide)

theorem Value.render_isUnbroken_iff {v : Value} (hv : v.hasDelimiters = false) {text : String}
    (h : v.render = .ok text) :
    IsUnbroken text.toList ↔ ∀ s ∈ v.freeTexts, IsUnbroken s.toList := by
  constructor
  · intro htext s hs c hc
    exact htext c (mem_render_of_mem_freeTexts h hs hc)
  · intro hfree c hc
    rcases render_chars hv h c hc with hchar | ⟨s, hs, hcs⟩
    · exact isValueChar_unbroken hchar
    · exact hfree s hs c hcs

/-- **The text that an attribute keeps for a value, other than a string or a label, stands between
double quotes, and is without quotes and line ends there exactly if the names that the value takes
over are.** -/
theorem checkValue_unbroken_iff {a : DotAttribute} {v : Value} {text : String}
    (hv : v.hasDelimiters = false) (h : checkValue (.dot a) v = .ok text) :
    ∃ body, v.render = .ok body ∧ text.toList = '"' :: (body.toList ++ ['"']) ∧
      (IsUnbroken body.toList ↔ ∀ s ∈ v.freeTexts, IsUnbroken s.toList) := by
  obtain ⟨-, hstored⟩ := checkValue_eq_ok.1 h
  rw [Value.storedText_eq hv] at hstored
  obtain ⟨body, hbody, hstored⟩ := Outcome.bind_eq_ok.1 hstored
  cases hstored
  exact ⟨body, hbody, by simp, v.render_isUnbroken_iff hv hbody⟩

/-- A layer `front` and a range from `low` to `high` are kept as one quoted string. -/
theorem layers_unbroken :
    ∃ body, (Value.layerRange ⟨[.text "front", .list [.text "low", .text "high"]]⟩).render =
        .ok body ∧
      "\"front,low:high\"".toList = '"' :: (body.toList ++ ['"']) ∧ IsUnbroken body.toList := by
  have hchecked : checkValue (.dot .layer)
      (.layerRange ⟨[.text "front", .list [.text "low", .text "high"]]⟩) =
        .ok "\"front,low:high\"" := rfl
  obtain ⟨body, hbody, htext, hiff⟩ := checkValue_unbroken_iff rfl hchecked
  exact ⟨body, hbody, htext, hiff.2 (by decide)⟩

/-- The name of a layer may hold a quote, which ends the quoted string too early. -/
theorem layerName_breaks_out :
    ∃ l, LayerList.of [.text "a\"b"] = .ok l ∧
      checkValue (.dot .layers) (.layerList l) = .ok "\"a\"b\"" ∧
      ¬ ∃ body, "\"a\"b\"".toList = '"' :: (body ++ ['"']) ∧ IsUnbroken body := by
  refine ⟨⟨[.text "a\"b"]⟩, rfl, rfl, ?_⟩
  rintro ⟨body, htext, hbody⟩
  have hchars : "\"a\"b\"".toList = '"' :: (['a', '"', 'b'] ++ ['"']) := by decide
  rw [hchars] at htext
  rw [← List.append_cancel_right (List.cons.inj htext).2] at hbody
  exact (hbody '"' (by simp)).1 rfl

end DotWriter
