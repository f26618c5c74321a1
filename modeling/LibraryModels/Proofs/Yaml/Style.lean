import LibraryModels.Proofs.Yaml.Plain

/-!
# The style of a text

A text is written in a style that can hold it, and plain only if the plain text is read as a text.
So its value does not depend on the text.
-/

namespace LibraryModels.Yaml

variable {s t : String}

/-- A plain text that is read as a text is read as that text. -/
theorem plainValue?_eq_string
    (h : plainValue? s = some (.string t)) :
    t = s ∧ s ≠ "" := by
  have hne : s ≠ "" := by
    rintro rfl
    cases h
  refine ⟨?_, hne⟩
  unfold plainValue? at h
  split at h
  · cases h
  · split at h
    · cases h
    · split at h
      · cases h
      · cases h
      · split at h
        · cases h
          rfl
        · split at h
          · cases h
          · cases h
            rfl

namespace Print

theorem plainValue?_of_readsAsText
    (h : readsAsText s = true) :
    plainValue? s = some (.string s) ∧ s ≠ "" := by
  unfold readsAsText at h
  split at h
  · next t ht =>
      obtain ⟨rfl, hne⟩ := plainValue?_eq_string ht
      exact ⟨ht, hne⟩
  · cases h

/-- What the style of a text says about it. -/
theorem styleOf_cases (s : String) :
    styleOf s = .plain ∧ readsAsText s = true ∧ PlainText s.toList ∨
      styleOf s = .singleQuoted ∧ allowsSingleQuoted s.toList = true ∧ '\n' ∉ s.toList ∨
      styleOf s = .doubleQuoted ∨
      styleOf s = .literal ∧ allowsLiteral s.toList = true ∧ '\n' ∈ s.toList := by
  by_cases hfeed : '\n' ∈ s.toList
  · by_cases hliteral : allowsLiteral s.toList = true
    · exact .inr (.inr (.inr ⟨by simp [styleOf, hfeed, hliteral], hliteral, hfeed⟩))
    · exact .inr (.inr (.inl (by simp [styleOf, hfeed, hliteral])))
  · by_cases hplain : readsAsText s = true ∧ allowsPlain s.toList = true
    · have hne : s.toList ≠ [] := by
        intro h
        exact (plainValue?_of_readsAsText hplain.1).2 (String.toList_eq_nil_iff.mp h)
      exact .inl ⟨by simp [styleOf, hfeed, hplain], hplain.1, .of_allowsPlain hne hplain.2⟩
    · by_cases hsingle : allowsSingleQuoted s.toList = true
      · exact .inr (.inl ⟨by simp [styleOf, hfeed, hplain, hsingle], hsingle, hfeed⟩)
      · exact .inr (.inr (.inl (by simp [styleOf, hfeed, hplain, hsingle])))

/-- A text that is written in its style is read as itself. -/
theorem untaggedValue?_styleOf (s : String) :
    untaggedValue? s (styleOf s) = some (.string s) := by
  rcases styleOf_cases s with ⟨h, hreads, -⟩ | ⟨h, -⟩ | h | ⟨h, -⟩
  · rw [h]
    exact (plainValue?_of_readsAsText hreads).1
  all_goals
    rw [h]
    rfl

end Print

end LibraryModels.Yaml
