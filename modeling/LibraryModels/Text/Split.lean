/-!
# Taking texts apart at a separator

Three searches over a list of characters: at the first separator, at the last one, and at every
one. Each lemma says that a split loses nothing and that the part on the searched side is free of
the separator, which pins the split down.
-/

namespace LibraryModels.Text

/-- The parts before and after the first `sep`. -/
def splitFirst (sep : Char) : List Char → Option (List Char × List Char)
  | [] => none
  | c :: cs =>
    if c = sep then some ([], cs)
    else (splitFirst sep cs).map fun parts => (c :: parts.1, parts.2)

/-- The parts before and after the last `sep`, which is the first one read backwards. -/
def splitLast (sep : Char) (cs : List Char) : Option (List Char × List Char) :=
  (splitFirst sep cs.reverse).map fun parts => (parts.2.reverse, parts.1.reverse)

/-- The pieces between separators; a text without one is a single piece. -/
def pieces (sep : Char) : List Char → List (List Char)
  | [] => [[]]
  | c :: cs =>
    if c = sep then [] :: pieces sep cs
    else
      match pieces sep cs with
      | [] => [[c]]
      | first :: rest => (c :: first) :: rest

/-- The pieces written one after the other with a separator between neighbours. -/
def joinWith (sep : Char) : List (List Char) → List Char
  | [] => []
  | [last] => last
  | piece :: rest => piece ++ sep :: joinWith sep rest

theorem splitFirst_eq_none_iff
    {sep : Char} {cs : List Char} :
    splitFirst sep cs = none ↔ sep ∉ cs := by
  induction cs with
  | nil => simp [splitFirst]
  | cons c cs ih =>
    by_cases h : c = sep
    · simp [splitFirst, h]
    · simp [splitFirst, h, ih, Ne.symm h]

theorem splitFirst_eq_some_iff
    {sep : Char} {cs before after : List Char} :
    splitFirst sep cs = some (before, after) ↔
      cs = before ++ sep :: after ∧ sep ∉ before := by
  induction cs generalizing before with
  | nil => simp [splitFirst]
  | cons c cs ih =>
    by_cases h : c = sep
    · subst h
      cases before <;> simp_all [splitFirst, eq_comm]
    · cases before with
      | nil => simp [splitFirst, h]
      | cons b before =>
        simp only [splitFirst, h, if_false, Option.map_eq_some_iff, Prod.mk.injEq,
          List.cons.injEq, Prod.exists, List.cons_append, List.mem_cons, not_or]
        constructor
        · rintro ⟨x, y, hxy, ⟨rfl, rfl⟩, rfl⟩
          have := ih.1 hxy
          exact ⟨⟨rfl, this.1⟩, Ne.symm h, this.2⟩
        · rintro ⟨⟨rfl, rfl⟩, _, hb⟩
          exact ⟨before, after, ih.2 ⟨rfl, hb⟩, ⟨rfl, rfl⟩, rfl⟩

theorem splitLast_eq_none_iff
    {sep : Char} {cs : List Char} :
    splitLast sep cs = none ↔ sep ∉ cs := by
  simp [splitLast, splitFirst_eq_none_iff]

theorem splitLast_eq_some_iff
    {sep : Char} {cs before after : List Char} :
    splitLast sep cs = some (before, after) ↔
      cs = before ++ sep :: after ∧ sep ∉ after := by
  simp only [splitLast, Option.map_eq_some_iff, Prod.exists, Prod.mk.injEq]
  constructor
  · rintro ⟨x, y, h, rfl, rfl⟩
    have := splitFirst_eq_some_iff.1 h
    refine ⟨?_, by simpa using this.2⟩
    simpa using congrArg List.reverse this.1
  · rintro ⟨rfl, h⟩
    refine ⟨after.reverse, before.reverse, ?_, by simp, by simp⟩
    exact splitFirst_eq_some_iff.2 ⟨by simp, by simpa using h⟩

theorem pieces_ne_nil
    (sep : Char) (cs : List Char) :
    pieces sep cs ≠ [] := by
  cases cs with
  | nil => simp [pieces]
  | cons c cs =>
    simp only [pieces]
    split
    · simp
    · split <;> simp

/-- Joining the pieces gives the text back. -/
theorem joinWith_pieces
    (sep : Char) (cs : List Char) :
    joinWith sep (pieces sep cs) = cs := by
  induction cs with
  | nil => rfl
  | cons c cs ih =>
    simp only [pieces]
    split
    · next h =>
      cases hp : pieces sep cs with
      | nil => exact absurd hp (pieces_ne_nil sep cs)
      | cons first rest =>
        rw [hp] at ih
        simp [joinWith, ih, h]
    · cases hp : pieces sep cs with
      | nil => exact absurd hp (pieces_ne_nil sep cs)
      | cons first rest =>
        rw [hp] at ih
        cases rest <;> simp_all [joinWith]

/-- Cutting at every separator undoes joining, when no piece holds one. -/
theorem pieces_joinWith
    {sep : Char} {parts : List (List Char)}
    (hne : parts ≠ []) (hfree : ∀ p ∈ parts, sep ∉ p) :
    pieces sep (joinWith sep parts) = parts := by
  have single : ∀ p : List Char, sep ∉ p → pieces sep p = [p] := by
    intro p hp
    induction p with
    | nil => rfl
    | cons c p ih =>
      simp only [List.mem_cons, not_or] at hp
      simp [pieces, Ne.symm hp.1, ih hp.2]
  have chain : ∀ (p rest : List Char),
      sep ∉ p → pieces sep (p ++ sep :: rest) = p :: pieces sep rest := by
    intro p rest hp
    induction p with
    | nil => simp [pieces]
    | cons c p ih =>
      simp only [List.mem_cons, not_or] at hp
      simp [pieces, Ne.symm hp.1, ih hp.2]
  induction parts with
  | nil => exact absurd rfl hne
  | cons p parts ih =>
    cases parts with
    | nil => simpa [joinWith] using single p (hfree p (by simp))
    | cons q parts =>
      simp only [joinWith]
      rw [chain _ _ (hfree p (by simp)), ih (by simp) fun r hr => hfree r (by simp [hr])]

theorem not_mem_of_mem_pieces
    {sep : Char} {cs p : List Char}
    (h : p ∈ pieces sep cs) :
    sep ∉ p := by
  induction cs generalizing p with
  | nil =>
    simp only [pieces, List.mem_singleton] at h
    simp [h]
  | cons c cs ih =>
    simp only [pieces] at h
    split at h
    · rcases List.mem_cons.1 h with rfl | h
      · simp
      · exact ih h
    · next hc =>
      split at h
      · next hp => exact absurd hp (pieces_ne_nil sep cs)
      · next first rest hp =>
        rcases List.mem_cons.1 h with rfl | h
        · have := ih (p := first) (by simp [hp])
          simp [this, Ne.symm hc]
        · exact ih (by simp [hp, h])

end LibraryModels.Text
