import LibraryModels.Proofs.Yaml.Direct
import LibraryModels.Yaml.Token.Plain

/-!
# Plain scalars read back

A text that may be written plain is read whole: neither a blank followed by a number sign nor a
colon followed by a blank ends it early.  It ends at the end of its line, or at the colon of the
key that it is.
-/

namespace LibraryModels.Yaml

open Print (isDirect allowsPlain endsEarly spaces StartsLine)

namespace PlainState

/-- The state after a character that belongs to the scalar. -/
def take (state : PlainState) (c : Char) : PlainState :=
  if isBlank c then state.blank c else state.push c

variable {state : PlainState} {indent : Int} {position : Position} {c : Char}
  {cs rest : List Char}

theorem read_cons
    (hc : c ≠ '\r') :
    read false indent state position (c :: rest) =
      if isBreak c then read false indent (state.lineEnd c) (position.nextLine 1) rest
      else if isBlank c then
        if state.gap.folded ∧ position.column < indent ∧ c = '\t' then none
        else read false indent (state.blank c) (position.advance 1) rest
      else if state.endsBeforeRun false indent position (c :: rest) then
        some (state.finish (c :: rest) position)
      else if endsBefore false c rest then some (state.finish (c :: rest) position)
      else read false indent (state.push c) (position.advance 1) rest := by
  rw [read.eq_def]
  split
  · next h => cases h
  · next h => exact absurd (List.cons.inj h).1 hc
  · next h =>
      cases h
      rfl

theorem take_folded
    (h : state.gap.folded = false) :
    (state.take c).gap.folded = false := by
  rw [take]
  split
  · simp [blank, Gap.addBlank, h]
  · rfl

/-- What has been read of a line, the last character first. -/
def line (state : PlainState) : List Char :=
  state.gap.blanks ++ state.text

theorem take_line
    (h : state.gap.folded = false) :
    (state.take c).line = c :: state.line := by
  rw [take]
  split
  · simp [blank, line, Gap.addBlank, h]
  · simp [push, line, Gap.text, h]

theorem take_fresh
    (hc : isBreak c = false) :
    (state.take c).fresh = isSpace c := by
  rw [take, isSpace, hc, Bool.or_false]
  split
  · next hblank => rw [hblank]; rfl
  · next hblank => rw [Bool.not_eq_true] at hblank; rw [hblank]; rfl

theorem foldl_take
    (cs : List Char) (state : PlainState)
    (h : state.gap.folded = false) :
    (cs.foldl take state).gap.folded = false ∧
      (cs.foldl take state).line = cs.reverse ++ state.line := by
  induction cs generalizing state with
  | nil => exact ⟨h, rfl⟩
  | cons c cs ih =>
      have hstep := ih (state.take c) (take_folded h)
      refine ⟨hstep.1, ?_⟩
      rw [List.foldl_cons, hstep.2, take_line h, List.reverse_cons, List.append_assoc]
      rfl

theorem endsBeforeRun_eq_false
    (hfolded : state.gap.folded = false)
    (hsign : (c = '#' && state.fresh) = false)
    (hgap : state.gap.blanks ≠ [] → indent ≤ position.column)
    (hmark : position.column = 0 → atDocumentMark (c :: rest) = false) :
    state.endsBeforeRun false indent position (c :: rest) = false := by
  have hlow : (! state.gap.blanks.isEmpty && decide ((position.column : Int) < indent)) =
      false := by
    cases hblanks : state.gap.blanks with
    | nil => rfl
    | cons b blanks =>
        have hright := hgap (by rw [hblanks]; exact List.cons_ne_nil b blanks)
        exact decide_eq_false (by omega)
  have hnone : (position.column = 0 && atDocumentMark (c :: rest)) = false := by
    by_cases hzero : position.column = 0
    · rw [hmark hzero, Bool.and_false]
    · rw [decide_eq_false hzero, Bool.false_and]
  simp only [Bool.and_eq_false_iff, decide_eq_false_iff_not] at hsign
  simp only [endsBeforeRun, hfolded, hlow, hnone, Bool.not_false, Bool.and_true,
    Bool.false_or, List.head?_cons, Option.some.injEq, Bool.and_eq_false_iff,
    decide_eq_false_iff_not]
  exact hsign.symm

theorem endsBefore_eq_false
    (hcolon : (c = ':' && atSpace cs) = false) :
    endsBefore false c (cs ++ rest) = false := by
  simp only [Bool.and_eq_false_iff, decide_eq_false_iff_not] at hcolon
  simp only [endsBefore, Bool.false_and, Bool.or_false, Bool.and_eq_false_iff,
    decide_eq_false_iff_not]
  refine hcolon.imp_right fun hspace => ?_
  cases cs with
  | nil => cases hspace
  | cons d cs => exact hspace

/-- A line that does not end early is read character by character. -/
theorem read_append
    (hfolded : state.gap.folded = false)
    (hdirect : ∀ c ∈ cs, isDirect c = true) (hbreak : ∀ c ∈ cs, isBreak c = false)
    (hends : endsEarly state.fresh cs = false)
    (hindent : indent ≤ position.column + 1)
    (hgap : state.gap.blanks ≠ [] → indent ≤ position.column)
    (hmark : position.column = 0 → atDocumentMark (cs ++ rest) = false) :
    read false indent state position (cs ++ rest) =
      read false indent (cs.foldl take state) (position.advance cs.length) rest := by
  induction cs generalizing state position with
  | nil => rfl
  | cons c cs ih =>
      have hcdirect := hdirect c List.mem_cons_self
      have hcbreak := hbreak c List.mem_cons_self
      simp only [endsEarly, Bool.or_eq_false_iff] at hends
      obtain ⟨⟨hcolon, hsign⟩, hends⟩ := hends
      have hrun : state.endsBeforeRun false indent position (c :: (cs ++ rest)) = false :=
        endsBeforeRun_eq_false hfolded hsign hgap hmark
      have hend : endsBefore false c (cs ++ rest) = false := endsBefore_eq_false hcolon
      have hstep : read false indent state position (c :: (cs ++ rest)) =
          read false indent (state.take c) (position.advance 1) (cs ++ rest) := by
        rw [read_cons (Print.ne_of_isDirect hcdirect).2.1, take]
        by_cases hblank : isBlank c = true
        · simp [hcbreak, hblank, hfolded]
        · simp [hcbreak, hblank, hrun, hend]
      -- past the first character no line begins, so only the indentation is left to check
      rw [List.cons_append, hstep, ih (take_folded hfolded)
        (fun d hd => hdirect d (List.mem_cons_of_mem c hd))
        (fun d hd => hbreak d (List.mem_cons_of_mem c hd))
        (by rw [take_fresh hcbreak]; exact hends)
        (by simp only [Position.advance]; omega)
        (fun _ => by simp only [Position.advance]; omega)
        (by simp only [Position.advance, Nat.add_eq_zero_iff, Nat.one_ne_zero, and_false,
          false_implies])]
      congr 1
      simp only [Position.advance, List.length_cons, Position.mk.injEq, true_and]
      omega

/-- After a character that is no blank nothing is held back. -/
theorem foldl_take_concat
    (hc : isBlank c = false) :
    (cs ++ [c]).foldl take {} = ⟨(cs ++ [c]).reverse, {}, false⟩ := by
  obtain ⟨hfolded, hline⟩ := foldl_take cs {} rfl
  rw [List.foldl_append, List.foldl_cons, List.foldl_nil, take, hc]
  simp only [line, List.append_nil] at hline
  simp [push, Gap.text, hfolded, hline]

/-- The gap after a line takes in the indentation of the next one. -/
theorem read_indentation
    (hfolded : state.gap.folded = true) (hfresh : state.fresh = true) (n : Nat) :
    read false indent state position (spaces n ++ rest) =
      read false indent state (position.advance n) rest := by
  induction n generalizing position with
  | zero => rfl
  | succ n ih =>
      have hstate : state.blank ' ' = state := by
        rw [blank, Gap.addBlank, if_pos hfolded, ← hfresh]
      rw [Print.spaces_succ, List.cons_append, read_cons (by decide)]
      simp only [isBreak_space, isBlank_space, Bool.false_eq_true, if_false, if_true]
      rw [if_neg (by rintro ⟨-, -, h⟩; cases h), hstate, ih]
      congr 1
      simp only [Position.advance, Position.mk.injEq, true_and]
      omega

end PlainState

namespace Print

/-- What it means that a text may be written plain. -/
structure PlainText (cs : List Char) : Prop where
  nonempty : cs ≠ []
  direct : ∀ c ∈ cs, isDirect c = true
  unbroken : ∀ c ∈ cs, isBreak c = false
  trimmed : hasOuterSpace cs = false
  unindicated : startsWithIndicator cs = false
  unmarked : startsWithMark cs = false
  whole : endsEarly true cs = false

theorem PlainText.of_allowsPlain
    {cs : List Char}
    (hne : cs ≠ []) (h : allowsPlain cs = true) :
    PlainText cs := by
  simp only [allowsPlain, Bool.and_eq_true, Bool.not_eq_eq_eq_not, Bool.not_true,
    List.all_eq_true, List.any_eq_false, Bool.not_eq_true] at h
  obtain ⟨⟨⟨⟨⟨hdirect, hunbroken⟩, htrimmed⟩, hunindicated⟩, hunmarked⟩, hwhole⟩ := h
  exact ⟨hne, hdirect, hunbroken, htrimmed, hunindicated, hunmarked, hwhole⟩

/-- The first character of a plain text begins a token. -/
theorem PlainText.startsToken
    {c : Char} {cs : List Char}
    (h : PlainText (c :: cs)) :
    StartsToken c where
  direct := h.direct c List.mem_cons_self
  unbroken := h.unbroken c List.mem_cons_self
  not_space := by
    rintro rfl
    have := h.trimmed
    simp [hasOuterSpace] at this
  not_comment := by
    rintro rfl
    have := h.unindicated
    simp [startsWithIndicator, isLeadIndicator] at this

/-- A plain text ends with a character that is no blank. -/
theorem PlainText.exists_concat
    {cs : List Char}
    (h : PlainText cs) :
    ∃ before last, cs = before ++ [last] ∧ isBlank last = false := by
  obtain ⟨before, last, rfl⟩ := (List.eq_nil_or_concat cs).resolve_left h.nonempty
  refine ⟨before, last, List.concat_eq_append, ?_⟩
  cases hblank : isBlank last with
  | false => rfl
  | true =>
      have hlast := eq_space_of_isDirect (h.direct last (by simp)) hblank
      have := h.trimmed
      simp [hasOuterSpace, hlast] at this

/-- A plain text is no mark of a document, whatever else is on its line. -/
theorem PlainText.atDocumentMark_append
    {c : Char} {cs rest : List Char}
    (h : PlainText cs) (hdash : c ≠ '-') (hdot : c ≠ '.') :
    atDocumentMark (cs ++ c :: rest) = false := by
  have hmark := h.unmarked
  unfold atDocumentMark
  split
  · next heq =>
      rcases cs with _ | ⟨a, _ | ⟨b, _ | ⟨d, cs⟩⟩⟩ <;> simp_all [startsWithMark]
  · next heq =>
      rcases cs with _ | ⟨a, _ | ⟨b, _ | ⟨d, cs⟩⟩⟩ <;> simp_all [startsWithMark]
  · rfl

end Print

section Reading

variable {cs rest : List Char} {indent : Int} {position : Position}

/-- The state after a whole plain text. -/
theorem readPlain_append
    {c : Char}
    (h : Print.PlainText cs) (hindent : indent ≤ position.column + 1)
    (hdash : c ≠ '-') (hdot : c ≠ '.') :
    readPlain false indent ⟨cs ++ c :: rest, position⟩ =
      PlainState.read false indent ⟨cs.reverse, {}, false⟩ (position.advance cs.length)
        (c :: rest) := by
  have hmark : atDocumentMark (cs ++ c :: rest) = false := h.atDocumentMark_append hdash hdot
  obtain ⟨before, last, rfl, hlast⟩ := h.exists_concat
  rw [readPlain, PlainState.read_append rfl h.direct h.unbroken h.whole hindent
      (fun hgap => absurd rfl hgap) fun _ => hmark,
    PlainState.foldl_take_concat hlast]

/-- A plain text that is a key ends at its colon. -/
theorem readPlain_key
    (h : Print.PlainText cs) (hindent : indent ≤ position.column + 1)
    (hrest : atSpace rest = true) :
    readPlain false indent ⟨cs ++ ':' :: rest, position⟩ =
      some ⟨String.ofList cs, false, ⟨':' :: rest, position.advance cs.length⟩⟩ := by
  rw [readPlain_append h hindent (by decide) (by decide), PlainState.read_cons (by decide)]
  have hrun : ∀ p, PlainState.endsBeforeRun ⟨cs.reverse, {}, false⟩ false indent p (':' :: rest) =
      false := fun _ => rfl
  have hend : PlainState.endsBefore false ':' rest = true := by
    simp [PlainState.endsBefore, hrest]
  simp [hrun, hend, PlainState.finish, isBreak, isBlank]

/-- A plain text that is a value ends at the next token of a line to the left. -/
theorem readPlain_line
    {limit : Nat} {tail : List Char} (indent : Int) (position : Position)
    (h : Print.PlainText cs)
    (hindent : (limit : Int) < indent) (hin : indent ≤ position.column + 1)
    (htail : StartsLine limit tail) :
    ∃ (m : Nat) (more : List Char) (q : Position), tail = spaces m ++ more ∧ q.column = 0 ∧
      position.line < q.line ∧
        readPlain false indent ⟨cs ++ '\n' :: tail, position⟩ =
          some ⟨String.ofList cs, true, ⟨more, q.advance m⟩⟩ := by
  have hline : readPlain false indent ⟨cs ++ '\n' :: tail, position⟩ =
      PlainState.read false indent ⟨cs.reverse, { lead := some '\n', folded := true }, true⟩
        ((position.advance cs.length).nextLine 1) tail := by
    rw [readPlain_append h hin (by decide) (by decide), PlainState.read_cons (by decide)]
    simp [PlainState.lineEnd, Gap.addBreak, breakText]
  let q := (position.advance cs.length).nextLine 1
  have hq : position.line < q.line := Nat.lt_succ_self _
  rw [hline]
  cases htail with
  | nothing =>
      refine ⟨0, [], q, rfl, rfl, hq, ?_⟩
      simp [PlainState.read, PlainState.finish, Position.advance, q]
  | @token m c more hm hc =>
      refine ⟨m, c :: more, q, rfl, rfl, hq, ?_⟩
      rw [PlainState.read_indentation rfl rfl,
        PlainState.read_cons (Print.ne_of_isDirect hc.direct).2.1]
      have hlow : ((((position.advance cs.length).nextLine 1).advance m).column : Int) < indent := by
        simp only [Position.advance, Position.nextLine]
        omega
      simp [hc.unbroken, hc.isBlank_eq_false, PlainState.endsBeforeRun, hlow, PlainState.finish, q]

end Reading

end LibraryModels.Yaml
