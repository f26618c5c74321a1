import LibraryModels.Proofs.Yaml.Printed

/-!
# The characters of written documents

A written document holds only characters that a YAML text may hold: a character of a text that
does not stand for itself is escaped, and an escape has nothing but letters and digits.
-/

namespace LibraryModels.Yaml

open Print (valueText entryLines entryText isShortKey)

namespace Print

variable {cs : List Char} {n : Nat}

/-- Every character may stand in a YAML text. -/
def AllAllowed (cs : List Char) : Prop :=
  ∀ c ∈ cs, isAllowed c = true

@[simp] theorem allAllowed_nil : AllAllowed [] :=
  fun _ h => by cases h

@[simp] theorem allAllowed_cons {c : Char} :
    AllAllowed (c :: cs) ↔ isAllowed c = true ∧ AllAllowed cs := by
  simp [AllAllowed]

theorem allAllowed_singleton
    {c : Char}
    (h : isAllowed c = true) :
    AllAllowed [c] :=
  allAllowed_cons.2 ⟨h, allAllowed_nil⟩

@[simp] theorem allAllowed_append {ds : List Char} :
    AllAllowed (cs ++ ds) ↔ AllAllowed cs ∧ AllAllowed ds := by
  simp only [AllAllowed, List.mem_append]
  exact ⟨fun h => ⟨fun c hc => h c (.inl hc), fun c hc => h c (.inr hc)⟩,
    fun h c hc => hc.elim (h.1 c) (h.2 c)⟩

@[simp] theorem allAllowed_spaces : AllAllowed (spaces n) := by
  intro c hc
  rw [List.eq_of_mem_replicate hc]
  rfl

theorem allAllowed_of_direct
    (h : ∀ c ∈ cs, isDirect c = true) :
    AllAllowed cs :=
  fun c hc => isAllowed_of_isDirect (h c hc)

/-! ## Scalars -/

theorem allAllowed_singleQuotedBody
    (after : Bool) (h : AllAllowed cs) :
    AllAllowed (singleQuotedBody n after cs) := by
  induction cs generalizing after with
  | nil => cases after <;> simp [singleQuotedBody]
  | cons c cs ih =>
      obtain ⟨hc, hcs⟩ := allAllowed_cons.mp h
      have hrest := fun after => ih after hcs
      have hquote : isAllowed '\'' = true := rfl
      rw [singleQuotedBody]
      split
      · simp [hc, hrest]
      · have hchar : AllAllowed (if c = '\'' then ['\'', '\''] else [c]) := by
          split <;> simp [hquote, hc]
        cases after <;> simp [hchar, hrest]

theorem allAllowed_literalBody
    (atStart : Bool) (h : AllAllowed cs) :
    AllAllowed (literalBody n atStart cs) := by
  induction cs generalizing atStart with
  | nil => exact allAllowed_nil
  | cons c cs ih =>
      obtain ⟨hc, hcs⟩ := allAllowed_cons.mp h
      have hrest := fun atStart => ih atStart hcs
      by_cases hbreak : isBreak c = true <;> cases atStart <;>
        simp [literalBody, hbreak, hc, hrest]

theorem allAllowed_hexDigits (width n : Nat) :
    AllAllowed (hexDigits width n) := by
  induction width generalizing n with
  | zero => exact allAllowed_nil
  | succ width ih =>
      have hdigit : ∀ d < 16, isAllowed (Nat.digitChar d).toUpper = true := by decide
      rw [hexDigits, allAllowed_append]
      exact ⟨ih _, by simpa using hdigit _ (Nat.mod_lt _ (by decide))⟩

theorem allAllowed_doubleQuotedChar (c : Char) :
    AllAllowed (doubleQuotedChar c) := by
  have hslash : isAllowed '\\' = true ∧ isAllowed 'x' = true ∧ isAllowed 'u' = true ∧
      isAllowed 'U' = true := ⟨rfl, rfl, rfl, rfl⟩
  rw [doubleQuotedChar]
  split
  · rw [escaped]
    split
    · next letter hletter =>
        have hallowed : isAllowed letter = true := by
          unfold shortEscape? at hletter
          split at hletter <;> cases hletter <;> rfl
        simp [hslash, hallowed]
    · split
      · simp [hslash, allAllowed_hexDigits]
      · split <;> simp [hslash, allAllowed_hexDigits]
  · next hplain =>
      simp only [Bool.or_eq_true, Bool.not_eq_eq_eq_not, Bool.not_true, not_or,
        Bool.not_eq_false] at hplain
      simpa using isAllowed_of_isDirect hplain.1.1.1

theorem allAllowed_doubleQuoted (cs : List Char) :
    AllAllowed (doubleQuoted cs) := by
  have hquote : isAllowed '"' = true := rfl
  have hbody : AllAllowed (cs.flatMap doubleQuotedChar) := by
    intro c hc
    obtain ⟨d, -, hd⟩ := List.mem_flatMap.mp hc
    exact allAllowed_doubleQuotedChar d c hd
  simp [doubleQuoted, hquote, hbody]

theorem allAllowed_literal
    (h : AllAllowed cs) :
    AllAllowed (literal n cs) := by
  have hhint : AllAllowed (indentationHint cs) := by
    unfold indentationHint
    split
    · exact allAllowed_singleton rfl
    · exact allAllowed_nil
  have hchomping : AllAllowed (chompingHint cs) := by
    unfold chompingHint
    split
    · exact allAllowed_singleton rfl
    · split
      · exact allAllowed_singleton rfl
      · split
        · exact allAllowed_singleton rfl
        · exact allAllowed_nil
  have hclosing : AllAllowed (closingBreak cs) := by
    unfold closingBreak
    split
    · exact allAllowed_nil
    · exact allAllowed_singleton rfl
  have hmarks : isAllowed '|' = true ∧ isAllowed '\n' = true := ⟨rfl, rfl⟩
  simp [literal, hmarks, hhint, hchomping, hclosing, allAllowed_literalBody true h]

theorem direct_of_isTidy
    (h : isTidy cs = true) :
    ∀ c ∈ cs, isDirect c = true := by
  simp only [isTidy, Bool.and_eq_true, List.all_eq_true] at h
  exact h.1

theorem allAllowed_inlineText (n : Nat) (s : String) (h : styleOf s ≠ .literal) :
    AllAllowed (inlineText n s) := by
  rcases styleOf_cases s with ⟨hstyle, -, hplain⟩ | ⟨hstyle, hsingle, -⟩ | hstyle | ⟨hstyle, -⟩
  · rw [inlineText, hstyle]
    exact allAllowed_of_direct hplain.direct
  · have hdirect : ∀ c ∈ s.toList, isDirect c = true := by
      simp only [allowsSingleQuoted, Bool.and_eq_true] at hsingle
      exact direct_of_isTidy hsingle.1
    have hquote : isAllowed '\'' = true := rfl
    have hbody := allAllowed_singleQuotedBody (n := n) false (allAllowed_of_direct hdirect)
    rw [inlineText, hstyle]
    simp [singleQuoted, hquote, hbody]
  · rw [inlineText, hstyle]
    exact allAllowed_doubleQuoted s.toList
  · exact absurd hstyle h

theorem allAllowed_textLine (n : Nat) (s : String) :
    AllAllowed (textLine n s) := by
  have hfeed : isAllowed '\n' = true := rfl
  rw [textLine]
  split
  · next hstyle =>
      rcases styleOf_cases s with ⟨h, -⟩ | ⟨h, -⟩ | h | ⟨-, hliteral, -⟩
      · rw [h] at hstyle
        cases hstyle
      · rw [h] at hstyle
        cases hstyle
      · rw [h] at hstyle
        cases hstyle
      · simp only [allowsLiteral, Bool.and_eq_true] at hliteral
        exact allAllowed_literal (allAllowed_of_direct (direct_of_isTidy hliteral.1))
  · next hstyle =>
      simp [hfeed, allAllowed_inlineText n s hstyle]

/-! ## Values -/

theorem allAllowed_itemLines
    (column : Nat) (items : List Value)
    (h : ∀ v ∈ items, ∀ place, AllAllowed (valueText place v)) :
    AllAllowed (itemLines column items) := by
  have hdash : isAllowed '-' = true := rfl
  induction items with
  | nil => exact allAllowed_nil
  | cons item items ih =>
      have hitems := ih fun v hv => h v (List.mem_cons_of_mem item hv)
      simp [itemLines, hdash, h item List.mem_cons_self, hitems]

theorem allAllowed_entryText
    {key : Value} {longKey value : List Char}
    (column : Nat) (hkey : isFieldName key = true) (hvalue : AllAllowed value) :
    AllAllowed (entryText column key longKey value) := by
  obtain ⟨s, rfl, hstyle, hshort, -⟩ := Scanner.exists_of_isFieldName hkey
  have hcolon : isAllowed ':' = true := rfl
  have hname := allAllowed_inlineText (column + 2) s (by rw [hstyle]; decide)
  simp [entryText, hshort, keyText, hcolon, hname, hvalue]

theorem allAllowed_entryLines
    (column : Nat) (entries : List (Value × Value))
    (hkeys : ∀ e ∈ entries, isFieldName e.1 = true)
    (h : ∀ e ∈ entries, ∀ place, AllAllowed (valueText place e.2)) :
    AllAllowed (entryLines column entries) := by
  induction entries with
  | nil => exact allAllowed_nil
  | cons entry entries ih =>
      obtain ⟨key, v⟩ := entry
      have hlater := ih (fun e he => hkeys e (List.mem_cons_of_mem _ he))
        fun e he => h e (List.mem_cons_of_mem _ he)
      rw [entryLines, allAllowed_append, allAllowed_append]
      exact ⟨allAllowed_spaces, allAllowed_entryText column (hkeys _ List.mem_cons_self)
        (h _ List.mem_cons_self _), hlater⟩

/-- What is before a collection. -/
theorem allAllowed_lead (opening : Bool) :
    AllAllowed (if opening then [' '] else '\n' :: spaces n) := by
  have hmarks : isAllowed ' ' = true ∧ isAllowed '\n' = true := ⟨rfl, rfl⟩
  cases opening <;> simp [hmarks]

theorem allAllowed_valueText
    {v : Value}
    (h : Regular v) (place : Place) :
    AllAllowed (valueText place v) := by
  have hmarks : isAllowed ' ' = true ∧ isAllowed '\n' = true ∧ isAllowed '-' = true ∧
      isAllowed '[' = true ∧ isAllowed ']' = true := ⟨rfl, rfl, rfl, rfl, rfl⟩
  induction h generalizing place with
  | null =>
      have hword : AllAllowed "null".toList := by
        simp [AllAllowed]
        decide
      simpa [valueText, simpleText?, hmarks] using hword
  | bool b =>
      have hword : AllAllowed (boolText b).toList := by
        cases b <;> simp [boolText, AllAllowed] <;> decide
      simp [valueText, simpleText?, hmarks, hword]
  | number hplain =>
      have htext := allAllowed_of_direct hplain.direct
      simp [valueText, simpleText?, hmarks, htext]
  | string s => simp [valueText, hmarks, allAllowed_textLine]
  | noItems => simp [valueText, simpleText?, hmarks]
  | sequence _ _ ihItem ihItems =>
      rw [valueText]
      simp only [allAllowed_append, allAllowed_cons]
      exact ⟨allAllowed_lead place.opening, hmarks.2.2.1, ihItem _,
        allAllowed_itemLines _ _ ihItems⟩
  | @mapping entry entries hkeys _ ihValues =>
      obtain ⟨key, v⟩ := entry
      rw [valueText]
      simp only [allAllowed_append]
      exact ⟨allAllowed_lead place.opening,
        allAllowed_entryText _ (hkeys _ List.mem_cons_self) (ihValues _ List.mem_cons_self _),
        allAllowed_entryLines _ _ (fun e he => hkeys e (List.mem_cons_of_mem _ he))
          fun e he => ihValues e (List.mem_cons_of_mem _ he)⟩

end Print

end LibraryModels.Yaml
