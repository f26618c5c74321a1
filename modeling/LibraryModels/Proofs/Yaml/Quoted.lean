import LibraryModels.Proofs.Yaml.Direct
import LibraryModels.Yaml.Token.Quoted
import Mathlib.Algebra.Group.Nat.Defs

/-!
# Quoted scalars read back

Between single quotes the line ends of a text stand for themselves, since none of them is a line
feed and no space stands beside one; the indentation after them is passed over.  Between double
quotes every character that does not stand for itself is escaped, and each escape is undone.
-/

namespace LibraryModels.Yaml

open Print (isDirect isSpaceChar hasNeighbours allowsSingleQuoted singleQuotedBody spaces
  doubleQuotedChar)
open Text (hexNumber? hexValue?)

namespace QuotedState

variable {state : QuotedState} {position : Position} {c : Char} {cs rest : List Char}

/-- The text that has been read, with what the gap at its end stands for. -/
def value (state : QuotedState) : List Char :=
  state.text.reverse ++ state.gap.text

theorem finish_eq :
    state.finish rest position = (String.ofList state.value, ⟨rest, position.advance 1⟩) := by
  simp [finish, value]

@[simp] theorem push_value : (state.push c).value = state.value ++ [c] := by
  simp [push, value, Gap.text]

/-- The state of a scalar in a line: blanks may be held back, but no line ends. -/
structure InLine (state : QuotedState) : Prop where
  folded : state.gap.folded = false
  breaks : state.gap.breaks = []

/-- The state of a scalar after line ends that stand for themselves. -/
structure AfterBreak (state : QuotedState) : Prop where
  folded : state.gap.folded = true
  fresh : state.fresh = true
  lead : ∃ c, state.gap.lead = some c ∧ c ≠ '\n'

theorem inLine_push : (state.push c).InLine := ⟨rfl, rfl⟩

theorem InLine.blank
    (h : state.InLine) :
    (state.blank c).InLine ∧ (state.blank c).value = state.value ++ [c] := by
  refine ⟨⟨?_, ?_⟩, ?_⟩ <;>
    simp [QuotedState.blank, value, Gap.addBlank, Gap.text, h.folded, h.breaks]

theorem InLine.lineEnd
    (h : state.InLine) (hblanks : state.gap.blanks = [])
    (hkept : breakText c = c) (hc : c ≠ '\n') :
    (state.lineEnd c).AfterBreak ∧ (state.lineEnd c).value = state.value ++ [c] := by
  refine ⟨⟨?_, rfl, ?_⟩, ?_⟩ <;>
    simp [QuotedState.lineEnd, value, Gap.addBreak, Gap.text, h.folded, h.breaks, hblanks, hkept, hc]

theorem AfterBreak.value_eq
    (h : state.AfterBreak) :
    state.value = state.text.reverse ++ (state.gap.lead.toList ++ state.gap.breaks.reverse) := by
  obtain ⟨c, hlead, hc⟩ := h.lead
  simp [value, Gap.text, h.folded, hlead, hc]

theorem AfterBreak.lineEnd
    (h : state.AfterBreak) (hkept : breakText c = c) :
    (state.lineEnd c).AfterBreak ∧ (state.lineEnd c).value = state.value ++ [c] := by
  have hgap : (state.lineEnd c).gap = { state.gap with breaks := c :: state.gap.breaks } := by
    rw [QuotedState.lineEnd, Gap.addBreak, if_pos h.folded, hkept]
  have hafter : (state.lineEnd c).AfterBreak := by
    refine ⟨?_, rfl, ?_⟩
    · rw [hgap]
      exact h.folded
    · rw [hgap]
      exact h.lead
  refine ⟨hafter, ?_⟩
  rw [hafter.value_eq, h.value_eq, hgap]
  simp [QuotedState.lineEnd]

theorem AfterBreak.blank
    (h : state.AfterBreak) :
    state.blank c = state := by
  rw [QuotedState.blank, Gap.addBlank, if_pos h.folded, ← h.fresh]

/-! ## Single quotes -/

theorem readSingle_cons
    (hcr : c ≠ '\r') (hquote : c = '\'' → rest.head? ≠ some '\'') :
    readSingle state position (c :: rest) =
      if isBreak c then readSingle (state.lineEnd c) (position.nextLine 1) rest
      else if isBlank c then readSingle (state.blank c) (position.advance 1) rest
      else if state.atMark position (c :: rest) then none
      else if c = '\'' then some (state.finish rest position)
      else readSingle (state.push c) (position.advance 1) rest := by
  rw [readSingle]
  · intro rest' h
    exact absurd h hcr
  · rintro rest' rfl rfl
    exact hquote rfl rfl

/-- Indentation after a line end is passed over. -/
theorem readSingle_indentation
    (h : state.AfterBreak) (n : Nat) :
    readSingle state position (spaces n ++ rest) =
      readSingle state (position.advance n) rest := by
  induction n generalizing position with
  | zero => rfl
  | succ n ih =>
      rw [Print.spaces_succ, List.cons_append, readSingle_cons (by decide) (fun hq => by cases hq)]
      simp only [isBreak_space, isBlank_space, Bool.false_eq_true, if_false, if_true]
      rw [h.blank, ih]
      congr 1
      simp only [Position.advance, Position.mk.injEq, true_and]
      omega

/-- A mark of a document is no concern where something is before it on the line. -/
theorem atMark_eq_false
    (h : 0 < position.column) :
    state.atMark position rest = false := by
  have : ¬ position.column = 0 := by omega
  simp [atMark, this]

/-- A visible character between single quotes, a quote being written twice. -/
theorem readSingle_visible
    (state : QuotedState) (rest : List Char)
    (hdirect : isDirect c = true) (hbreak : isBreak c = false) (hblank : isBlank c = false)
    (hcolumn : 0 < position.column) :
    ∃ q, position.line ≤ q.line ∧ 0 < q.column ∧
      readSingle state position ((if c = '\'' then ['\'', '\''] else [c]) ++ rest) =
        readSingle (state.push c) q rest := by
  by_cases hc : c = '\''
  · refine ⟨position.advance 2, Nat.le_refl _, Nat.succ_pos _, ?_⟩
    subst hc
    rw [if_pos rfl]
    simp only [List.cons_append, List.nil_append]
    rw [readSingle]
  · refine ⟨position.advance 1, Nat.le_refl _, Nat.succ_pos _, ?_⟩
    rw [if_neg hc, List.singleton_append,
      readSingle_cons (Print.ne_of_isDirect hdirect).2.1 (fun h => absurd h hc)]
    simp [hbreak, hblank, atMark_eq_false hcolumn, hc]

theorem readSingle_close
    (hcolumn : 0 < position.column) (hrest : rest.head? ≠ some '\'') :
    readSingle state position ('\'' :: rest) =
      some (String.ofList state.value, ⟨rest, position.advance 1⟩) := by
  rw [readSingle_cons (by decide) (fun _ => hrest), ← finish_eq]
  simp [isBreak, isBlank, atMark_eq_false hcolumn]

/-- A text that can be folded: no space stands before a line end, and none after one. -/
structure Foldable (cs : List Char) : Prop where
  direct : ∀ c ∈ cs, isDirect c = true
  feed : '\n' ∉ cs
  before : hasNeighbours isSpaceChar isBreak cs = false
  after : hasNeighbours isBreak isSpaceChar cs = false

theorem Foldable.tail
    (h : Foldable (c :: cs)) :
    Foldable cs where
  direct := fun d hd => h.direct d (List.mem_cons_of_mem c hd)
  feed := fun hd => h.feed (List.mem_cons_of_mem c hd)
  before := by
    cases cs with
    | nil => rfl
    | cons d cs => exact (Bool.or_eq_false_iff.1 h.before).2
  after := by
    cases cs with
    | nil => rfl
    | cons d cs => exact (Bool.or_eq_false_iff.1 h.after).2

theorem Foldable.head?_ne_space
    (h : Foldable (c :: cs)) (hbreak : isBreak c = true) :
    cs.head? ≠ some ' ' := by
  have hafter := h.after
  cases cs with
  | nil => simp
  | cons d cs =>
      simp only [hasNeighbours, hbreak, Bool.true_and, Bool.or_eq_false_iff] at hafter
      rintro ⟨⟩
      simp [isSpaceChar] at hafter

theorem Foldable.head?_not_break
    (h : Foldable (' ' :: cs)) :
    cs.head?.any isBreak = false := by
  have hbefore := h.before
  cases cs with
  | nil => rfl
  | cons d cs =>
      simp only [hasNeighbours, isSpaceChar, decide_true, Bool.true_and,
        Bool.or_eq_false_iff] at hbefore
      exact hbefore.1

/-- Within a line the written text is read to the closing quote. -/
def ReadsInLine (indent : Nat) (cs rest : List Char) : Prop :=
  ∀ (state : QuotedState) (position : Position),
    state.InLine → 0 < position.column →
      (state.gap.blanks = [] ∨ cs.head?.any isBreak = false) →
        ∃ q, position.line ≤ q.line ∧
          readSingle state position (singleQuotedBody indent false cs ++ '\'' :: rest) =
            some (String.ofList (state.value ++ cs), ⟨rest, q⟩)

/-- After a line end the written text is read to the closing quote. -/
def ReadsAfterBreak (indent : Nat) (cs rest : List Char) : Prop :=
  ∀ (state : QuotedState) (position : Position),
    state.AfterBreak → cs.head? ≠ some ' ' →
      ∃ q, position.line ≤ q.line ∧
        readSingle state position (singleQuotedBody indent true cs ++ '\'' :: rest) =
          some (String.ofList (state.value ++ cs), ⟨rest, q⟩)

section SingleQuotedBody

variable {indent : Nat}

theorem append_singleton_append (xs : List Char) :
    xs ++ [c] ++ cs = xs ++ c :: cs := by
  rw [List.append_assoc, List.singleton_append]

theorem readsInLine_nil
    (hrest : rest.head? ≠ some '\'') :
    ReadsInLine indent [] rest := by
  intro state position _ hcolumn _
  refine ⟨position.advance 1, Nat.le_refl _, ?_⟩
  rw [List.append_nil]
  exact readSingle_close hcolumn hrest

theorem readsAfterBreak_nil
    (hindent : 0 < indent) (hrest : rest.head? ≠ some '\'') :
    ReadsAfterBreak indent [] rest := by
  intro state position hstate _
  refine ⟨(position.advance indent).advance 1, Nat.le_refl _, ?_⟩
  rw [List.append_nil, singleQuotedBody, if_pos rfl, readSingle_indentation hstate]
  exact readSingle_close (Nat.lt_of_lt_of_le hindent (Nat.le_add_left _ _)) hrest

theorem readSingle_lineEnd
    (hdirect : isDirect c = true) (hbreak : isBreak c = true) (b : Bool) :
    readSingle state position (singleQuotedBody indent b (c :: cs) ++ '\'' :: rest) =
      readSingle (state.lineEnd c) (position.nextLine 1)
        (singleQuotedBody indent true cs ++ '\'' :: rest) := by
  rw [singleQuotedBody, if_pos hbreak, List.cons_append,
    readSingle_cons (Print.ne_of_isDirect hdirect).2.1, if_pos hbreak]
  rintro rfl
  cases hbreak

/-- A line end, from within a line and after another one. -/
theorem ReadsAfterBreak.lineEnd
    (h : ReadsAfterBreak indent cs rest) (hfold : Foldable (c :: cs)) (hbreak : isBreak c = true) :
    ReadsInLine indent (c :: cs) rest ∧ ReadsAfterBreak indent (c :: cs) rest := by
  have hdirect := hfold.direct c List.mem_cons_self
  have hfeed : c ≠ '\n' := fun heq => hfold.feed (heq ▸ List.mem_cons_self)
  have hkept := Print.breakText_of_isDirect hdirect hbreak
  have hhead := hfold.head?_ne_space hbreak
  constructor
  · intro state position hstate _ hblanks
    have hnone : state.gap.blanks = [] := by
      simpa [hbreak] using hblanks
    obtain ⟨hnext, hvalue⟩ := hstate.lineEnd hnone hkept hfeed
    obtain ⟨q, hq, hread⟩ := h _ (position.nextLine 1) hnext hhead
    refine ⟨q, Nat.le_trans (Nat.le_succ _) hq, ?_⟩
    rw [readSingle_lineEnd hdirect hbreak, hread, hvalue, append_singleton_append]
  · intro state position hstate _
    obtain ⟨hnext, hvalue⟩ := hstate.lineEnd hkept
    obtain ⟨q, hq, hread⟩ := h _ (position.nextLine 1) hnext hhead
    refine ⟨q, Nat.le_trans (Nat.le_succ _) hq, ?_⟩
    rw [readSingle_lineEnd hdirect hbreak, hread, hvalue, append_singleton_append]

theorem ReadsInLine.visible
    (h : ReadsInLine indent cs rest) (state : QuotedState)
    (hdirect : isDirect c = true) (hbreak : isBreak c = false) (hblank : isBlank c = false)
    (hcolumn : 0 < position.column) :
    ∃ q, position.line ≤ q.line ∧
      readSingle state position ((if c = '\'' then ['\'', '\''] else [c]) ++
          singleQuotedBody indent false cs ++ '\'' :: rest) =
        some (String.ofList (state.value ++ c :: cs), ⟨rest, q⟩) := by
  obtain ⟨q, hq, hqcolumn, hread⟩ := readSingle_visible state
    (singleQuotedBody indent false cs ++ '\'' :: rest) hdirect hbreak hblank hcolumn
  obtain ⟨q', hq', hread'⟩ := h (state.push c) q inLine_push hqcolumn (.inl rfl)
  refine ⟨q', Nat.le_trans hq hq', ?_⟩
  rw [List.append_assoc, hread, hread', push_value, append_singleton_append]

/-- A space is held back, and no line end comes after it. -/
theorem ReadsInLine.space
    (h : ReadsInLine indent cs rest) (hfold : Foldable (' ' :: cs)) :
    ReadsInLine indent (' ' :: cs) rest := by
  intro state position hstate _ _
  obtain ⟨hnext, hvalue⟩ := hstate.blank (c := ' ')
  obtain ⟨q, hq, hread⟩ := h _ (position.advance 1) hnext (Nat.succ_pos _)
    (.inr hfold.head?_not_break)
  refine ⟨q, hq, ?_⟩
  rw [singleQuotedBody, if_neg (by decide), if_neg (by decide), List.nil_append,
    if_neg (by decide), List.append_assoc, List.singleton_append,
    readSingle_cons (by decide) (fun hq => by cases hq)]
  simp only [isBreak_space, isBlank_space, Bool.false_eq_true, if_false, if_true]
  rw [hread, hvalue, append_singleton_append]

/-- What is written of a text between single quotes is read as the text. -/
theorem reads_singleQuotedBody
    (hindent : 0 < indent) (hrest : rest.head? ≠ some '\'') (hfold : Foldable cs) :
    ReadsInLine indent cs rest ∧ ReadsAfterBreak indent cs rest := by
  -- both at once, as a line end leads from within a line to after a line end
  induction cs with
  | nil => exact ⟨readsInLine_nil hrest, readsAfterBreak_nil hindent hrest⟩
  | cons c cs ih =>
      obtain ⟨hline, hafter⟩ := ih hfold.tail
      have hdirect := hfold.direct c List.mem_cons_self
      by_cases hbreak : isBreak c = true
      · exact hafter.lineEnd hfold hbreak
      rw [Bool.not_eq_true] at hbreak
      constructor
      · by_cases hblank : isBlank c = true
        · have hspace := Print.eq_space_of_isDirect hdirect hblank
          subst hspace
          exact hline.space hfold
        · rw [Bool.not_eq_true] at hblank
          intro state position _ hcolumn _
          rw [singleQuotedBody, hbreak]
          exact hline.visible state hdirect hbreak hblank hcolumn
      · intro state position hstate hhead
        have hblank : isBlank c = false := by
          rw [Bool.eq_false_iff]
          intro hblank
          exact hhead (congrArg some (Print.eq_space_of_isDirect hdirect hblank))
        have hcolumn : 0 < (position.advance indent).column :=
          Nat.lt_of_lt_of_le hindent (Nat.le_add_left _ _)
        obtain ⟨q, hq, hread⟩ := hline.visible state hdirect hbreak hblank hcolumn
        refine ⟨q, hq, ?_⟩
        rw [singleQuotedBody, hbreak]
        simp only [Bool.false_eq_true, if_false, if_true]
        rw [List.append_assoc, List.append_assoc, readSingle_indentation hstate,
          ← List.append_assoc, hread]

end SingleQuotedBody

/-! ## Double quotes -/

theorem readDouble_cons
    (hcr : c ≠ '\r') (hescape : c ≠ '\\') :
    readDouble state position (c :: rest) =
      if isBreak c then readDouble (state.lineEnd c) (position.nextLine 1) rest
      else if isBlank c then readDouble (state.blank c) (position.advance 1) rest
      else if state.atMark position (c :: rest) then none
      else if c = '"' then some (state.finish rest position)
      else readDouble (state.push c) (position.advance 1) rest := by
  rw [readDouble]
  · simp [hescape]
  · intro rest' h
    exact absurd h hcr
  all_goals
    intros
    contradiction

theorem readDouble_letter
    {letter : Char}
    (hletter : letterEscape? letter = some c) (hbreak : isBreak letter = false) :
    readDouble state position ('\\' :: letter :: rest) =
      readDouble (state.push c) (position.advance 2) rest := by
  rw [readDouble]
  · simp [hletter, hbreak]
  · rintro rest' rfl
    cases hbreak
  all_goals
    intros
    subst_vars
    cases hletter

theorem readDouble_two
    {a b : Char}
    (h : numericEscape? [a, b] = some c) :
    readDouble state position ('\\' :: 'x' :: a :: b :: rest) =
      readDouble (state.push c) (position.advance 4) rest := by
  rw [readDouble, h]

theorem readDouble_four
    {a b d e : Char}
    (h : numericEscape? [a, b, d, e] = some c) :
    readDouble state position ('\\' :: 'u' :: a :: b :: d :: e :: rest) =
      readDouble (state.push c) (position.advance 6) rest := by
  rw [readDouble, h]

theorem readDouble_eight
    {a b d e f g i j : Char}
    (h : numericEscape? [a, b, d, e, f, g, i, j] = some c) :
    readDouble state position ('\\' :: 'U' :: a :: b :: d :: e :: f :: g :: i :: j :: rest) =
      readDouble (state.push c) (position.advance 10) rest := by
  rw [readDouble, h]

end QuotedState

/-! ## Numeric escapes -/

theorem hexValue?_digitChar :
    ∀ n < 16, hexValue? (Nat.digitChar n).toUpper = some n := by
  decide

/-- The digits of a number, as many as its width allows, spell its remainder. -/
theorem hexNumber?_hexDigits (width n : Nat) :
    hexNumber? (Print.hexDigits width n) = some (n % 16 ^ width) := by
  induction width generalizing n with
  | zero => simp [Print.hexDigits, hexNumber?, Nat.mod_one]
  | succ width ih =>
      have hlast : hexValue? (Nat.digitChar (n % 16)).toUpper = some (n % 16) :=
        hexValue?_digitChar _ (Nat.mod_lt _ (by decide))
      unfold hexNumber? at ih ⊢
      rw [Print.hexDigits, List.foldlM_append, ih]
      simp only [Option.bind_eq_bind, Option.bind_some, List.foldlM_cons, List.foldlM_nil, hlast,
        Option.map_some, Option.pure_def, Option.some.injEq]
      rw [Nat.pow_succ', Nat.mod_mul]
      omega

theorem charOfNumber?_toNat (c : Char) :
    charOfNumber? c.toNat = some c := by
  rw [charOfNumber?, dif_pos (show c.toNat.isValidChar from c.valid)]
  rfl

theorem numericEscape?_hexDigits
    (width : Nat) {c : Char}
    (h : c.toNat < 16 ^ width) :
    numericEscape? (Print.hexDigits width c.toNat) = some c := by
  rw [numericEscape?, hexNumber?_hexDigits, Nat.mod_eq_of_lt h]
  exact charOfNumber?_toNat c

/-- A short escape is a letter that stands for the character. -/
theorem letterEscape?_of_shortEscape?
    {c letter : Char}
    (h : Print.shortEscape? c = some letter) :
    letterEscape? letter = some c ∧ isBreak letter = false := by
  unfold Print.shortEscape? at h
  split at h <;> cases h <;> exact ⟨rfl, rfl⟩

namespace QuotedState

variable {state : QuotedState} {position : Position} {c : Char} {cs rest : List Char}

/-- An escaped character is read as itself. -/
theorem readDouble_escaped
    (state : QuotedState) (c : Char) (rest : List Char)
    (hcolumn : 0 < position.column) :
    ∃ q, position.line ≤ q.line ∧ 0 < q.column ∧
      readDouble state position (Print.escaped c ++ rest) = readDouble (state.push c) q rest := by
  have hadvance : ∀ n, position.line ≤ (position.advance n).line ∧
      0 < (position.advance n).column :=
    fun n => ⟨Nat.le_refl _, Nat.lt_of_lt_of_le hcolumn (Nat.le_add_right _ _)⟩
  have hbound : c.toNat < 16 ^ 8 := Nat.lt_of_lt_of_le c.val.toNat_lt (by decide)
  unfold Print.escaped
  cases hshort : Print.shortEscape? c with
  | some letter =>
      obtain ⟨hletter, hbreak⟩ := letterEscape?_of_shortEscape? hshort
      exact ⟨_, (hadvance 2).1, (hadvance 2).2, readDouble_letter hletter hbreak⟩
  | none =>
      by_cases htwo : c.toNat ≤ 0xFF
      · have hread := numericEscape?_hexDigits 2 (by omega : c.toNat < 16 ^ 2)
        simp only [htwo, if_true]
        exact ⟨_, (hadvance 4).1, (hadvance 4).2, readDouble_two hread⟩
      · by_cases hfour : c.toNat ≤ 0xFFFF
        · have hread := numericEscape?_hexDigits 4 (by omega : c.toNat < 16 ^ 4)
          simp only [htwo, hfour, if_true, if_false]
          exact ⟨_, (hadvance 6).1, (hadvance 6).2, readDouble_four hread⟩
        · have hread := numericEscape?_hexDigits 8 hbound
          simp only [htwo, hfour, if_false]
          exact ⟨_, (hadvance 10).1, (hadvance 10).2, readDouble_eight hread⟩

/-- A character between double quotes, escaped or not, is read as itself. -/
theorem readDouble_char
    (c : Char) (rest : List Char)
    (hstate : state.InLine) (hcolumn : 0 < position.column) :
    ∃ next q, next.InLine ∧ next.value = state.value ++ [c] ∧ position.line ≤ q.line ∧
      0 < q.column ∧
        readDouble state position (doubleQuotedChar c ++ rest) = readDouble next q rest := by
  unfold doubleQuotedChar
  split
  · obtain ⟨q, hline, hqcolumn, hread⟩ :=
      readDouble_escaped state c rest hcolumn
    exact ⟨state.push c, q, inLine_push, push_value, hline, hqcolumn, hread⟩
  · next hplain =>
      simp only [Bool.or_eq_true, Bool.not_eq_eq_eq_not, Bool.not_true, decide_eq_true_eq,
        not_or, Bool.not_eq_false, Bool.not_eq_true] at hplain
      obtain ⟨⟨⟨hdirect, hbreak⟩, hquote⟩, hescape⟩ := hplain
      have hread : readDouble state position ([c] ++ rest) =
          readDouble (if isBlank c then state.blank c else state.push c)
            (position.advance 1) rest := by
        rw [List.singleton_append, readDouble_cons (Print.ne_of_isDirect hdirect).2.1 hescape]
        by_cases hblank : isBlank c = true
        · simp [hbreak, hblank]
        · simp [hbreak, hblank, hquote, atMark_eq_false hcolumn]
      refine ⟨_, position.advance 1, ?_, ?_, Nat.le_refl _, Nat.succ_pos _, hread⟩
      · split
        · exact hstate.blank.1
        · exact inLine_push
      · split
        · exact hstate.blank.2
        · exact push_value

theorem readDouble_body
    (cs rest : List Char) (state : QuotedState) (position : Position)
    (hstate : state.InLine) (hcolumn : 0 < position.column) :
    ∃ q, position.line ≤ q.line ∧
      readDouble state position (cs.flatMap doubleQuotedChar ++ '"' :: rest) =
        some (String.ofList (state.value ++ cs), ⟨rest, q⟩) := by
  induction cs generalizing state position with
  | nil =>
      refine ⟨position.advance 1, Nat.le_refl _, ?_⟩
      rw [List.append_nil, ← finish_eq]
      show readDouble state position ('"' :: rest) = _
      rw [readDouble_cons (by decide) (by decide)]
      simp [isBreak, isBlank, atMark_eq_false hcolumn]
  | cons c cs ih =>
      obtain ⟨next, q, hnext, hvalue, hline, hqcolumn, hread⟩ := readDouble_char c
        (cs.flatMap doubleQuotedChar ++ '"' :: rest) hstate hcolumn
      obtain ⟨q', hline', hread'⟩ := ih next q hnext hqcolumn
      refine ⟨q', Nat.le_trans hline hline', ?_⟩
      rw [List.flatMap_cons, List.append_assoc, hread, hread', hvalue]
      simp

end QuotedState

/-! ## Whole scalars -/

section Reading

variable {cs rest : List Char} {position : Position}

/-- A text that may be written between single quotes is read back from there. -/
theorem readSingleQuoted_singleQuoted
    {indent : Nat} (position : Position)
    (hindent : 0 < indent) (h : allowsSingleQuoted cs = true) (hfeed : '\n' ∉ cs)
    (hrest : rest.head? ≠ some '\'') :
    ∃ q, position.line ≤ q.line ∧
      readSingleQuoted ⟨Print.singleQuoted indent cs ++ rest, position⟩ =
        some (String.ofList cs, ⟨rest, q⟩) := by
  simp only [allowsSingleQuoted, Print.isTidy, Bool.and_eq_true, Bool.not_eq_eq_eq_not,
    Bool.not_true, List.all_eq_true] at h
  obtain ⟨⟨hdirect, hbefore⟩, hafter⟩ := h
  obtain ⟨hline, -⟩ :=
    QuotedState.reads_singleQuotedBody hindent hrest ⟨hdirect, hfeed, hbefore, hafter⟩
  obtain ⟨q, hq, hread⟩ := hline {} (position.advance 1) ⟨rfl, rfl⟩ (Nat.succ_pos _) (.inl rfl)
  refine ⟨q, hq, ?_⟩
  have hvalue : QuotedState.value {} = [] := rfl
  rw [hvalue, List.nil_append] at hread
  rw [readSingleQuoted, Print.singleQuoted]
  simpa using hread

/-- Every text is read back from between double quotes. -/
theorem readDoubleQuoted_doubleQuoted
    (cs rest : List Char) (position : Position) :
    ∃ q, position.line ≤ q.line ∧
      readDoubleQuoted ⟨Print.doubleQuoted cs ++ rest, position⟩ =
        some (String.ofList cs, ⟨rest, q⟩) := by
  obtain ⟨q, hq, hread⟩ := QuotedState.readDouble_body cs rest {} (position.advance 1)
    ⟨rfl, rfl⟩ (Nat.succ_pos _)
  refine ⟨q, hq, ?_⟩
  have hvalue : QuotedState.value {} = [] := rfl
  rw [hvalue, List.nil_append] at hread
  rw [readDoubleQuoted, Print.doubleQuoted]
  simpa using hread

end Reading

end LibraryModels.Yaml
