import LibraryModels.Proofs.Yaml.Direct
import LibraryModels.Yaml.Token.Block

/-!
# Literal blocks read back

The header of a written block says how deep its lines are indented, when that does not show in
the first of them, and which of the line ends at its end belong to the text.  The block ends at
the next line that begins to the left.
-/

namespace LibraryModels.Yaml

open Print (isDirect allowsLiteral literalBody indentationHint chompingHint closingBreak spaces
  StartsLine)

namespace BlockState

variable {state : BlockState} {chomping : Chomping} {indent : Nat} {position : Position}
  {c : Char} {cs rest : List Char}

/-- The text that has been read, all line ends included. -/
def value (state : BlockState) : List Char :=
  state.text.reverse ++ (state.lead.toList ++ state.breaks.reverse)

/-- The state after a character of the text. -/
def take (state : BlockState) (c : Char) : BlockState :=
  if isBreak c then state.lineEnd c
  else
    match state.place with
    | .inLine => { state with text := c :: state.text }
    | .beforeLine => state.startLine true c

/-- Within a line no line end is held back. -/
def Settled (state : BlockState) : Prop :=
  state.place = .inLine → state.lead = none ∧ state.breaks = []

theorem take_of_isBreak
    (hc : isBreak c = true) :
    (state.take c).place = .beforeLine := by
  rw [take, if_pos hc, lineEnd]
  split
  · rfl
  · next h => exact h

theorem take_of_not_isBreak
    (hstate : state.Settled) (hc : isBreak c = false) :
    (state.take c).place = .inLine ∧ (state.take c).lead = none ∧ (state.take c).breaks = [] ∧
      (state.take c).value = state.value ++ [c] := by
  rw [take, hc]
  cases hplace : state.place with
  | inLine =>
      obtain ⟨hlead, hbreaks⟩ := hstate hplace
      simp [hlead, hbreaks, value]
  | beforeLine => cases hlead : state.lead <;> simp [startLine, value, hlead]

theorem take_settled
    (hstate : state.Settled) :
    (state.take c).Settled := by
  intro hplace
  cases hc : isBreak c with
  | false =>
      obtain ⟨-, hlead, hbreaks, -⟩ := take_of_not_isBreak hstate hc
      exact ⟨hlead, hbreaks⟩
  | true =>
      rw [take_of_isBreak hc] at hplace
      cases hplace

theorem take_value
    (hstate : state.Settled) (hc : isDirect c = true) :
    (state.take c).value = state.value ++ [c] := by
  cases hbreak : isBreak c with
  | false => exact (take_of_not_isBreak hstate hbreak).2.2.2
  | true =>
      rw [take, if_pos hbreak, lineEnd, Print.breakText_of_isDirect hc hbreak]
      split
      · next hplace =>
          obtain ⟨hlead, hbreaks⟩ := hstate hplace
          simp [value, hlead, hbreaks]
      · simp [value]

theorem foldl_take
    (cs : List Char) (state : BlockState)
    (hstate : state.Settled) (hdirect : ∀ c ∈ cs, isDirect c = true) :
    (cs.foldl take state).Settled ∧ (cs.foldl take state).value = state.value ++ cs := by
  induction cs generalizing state with
  | nil => exact ⟨hstate, (List.append_nil _).symm⟩
  | cons c cs ih =>
      have hstep := ih (state.take c) (take_settled hstate)
        fun d hd => hdirect d (List.mem_cons_of_mem c hd)
      refine ⟨hstep.1, ?_⟩
      rw [List.foldl_cons, hstep.2, take_value hstate (hdirect c List.mem_cons_self)]
      simp

/-! ## Reading the lines -/

theorem read_cons
    (hcr : c ≠ '\r') :
    read true chomping indent state position (c :: rest) =
      if isBreak c then
        read true chomping indent (state.lineEnd c) (position.nextLine 1) rest
      else
        match state.place with
        | .inLine =>
          read true chomping indent { state with text := c :: state.text } (position.advance 1) rest
        | .beforeLine =>
          if position.column < indent ∧ c = ' ' then
            read true chomping indent state (position.advance 1) rest
          else if position.column < indent ∧ c = '\t' then none
          else if position.column = indent then
            read true chomping indent (state.startLine true c) (position.advance 1) rest
          else some (state.finish chomping, ⟨c :: rest, position⟩) := by
  rw [read.eq_def]
  split
  · next h => cases h
  · next h => exact absurd (List.cons.inj h).1 hcr
  · next h =>
      cases h
      rfl

/-- Indentation before a line is passed over. -/
theorem read_indentation
    (hplace : state.place = .beforeLine) {n : Nat} (hn : position.column + n ≤ indent) :
    read true chomping indent state position (spaces n ++ rest) =
      read true chomping indent state (position.advance n) rest := by
  induction n generalizing position with
  | zero => rfl
  | succ n ih =>
      rw [Print.spaces_succ, List.cons_append, read_cons (by decide), hplace]
      have hlow : position.column < indent := by omega
      simp only [isBreak_space, Bool.false_eq_true, if_false, hlow, and_self, if_true]
      rw [ih (by simp only [Position.advance]; omega)]
      congr 1
      simp only [Position.advance, Position.mk.injEq, true_and]
      omega

/-- A character of a line, after the indentation if it is the first. -/
theorem read_visible
    (chomping : Chomping) (indent : Nat) (rest : List Char)
    (hdirect : isDirect c = true) (hbreak : isBreak c = false)
    (hcolumn : state.place = .beforeLine → position.column = 0) :
    ∃ q, position.line ≤ q.line ∧
      read true chomping indent state position
          ((if state.place = .beforeLine then spaces indent else []) ++ c :: rest) =
        read true chomping indent (state.take c) q rest := by
  have hcr := (Print.ne_of_isDirect hdirect).2.1
  cases hplace : state.place with
  | inLine =>
      refine ⟨position.advance 1, Nat.le_refl _, ?_⟩
      simp [read_cons hcr, take, hbreak, hplace]
  | beforeLine =>
      refine ⟨(position.advance indent).advance 1, Nat.le_refl _, ?_⟩
      have hzero := hcolumn hplace
      rw [if_pos rfl, read_indentation hplace (by omega), read_cons hcr, hplace]
      simp [take, hbreak, hplace, Position.advance, hzero]

/-- The lines of a text are read character by character. -/
theorem read_append
    (chomping : Chomping) (indent : Nat) (rest : List Char) (state : BlockState)
    (position : Position)
    (hdirect : ∀ c ∈ cs, isDirect c = true)
    (hcolumn : state.place = .beforeLine → position.column = 0) :
    ∃ q, position.line ≤ q.line ∧
      ((cs.foldl take state).place = .beforeLine → q.column = 0) ∧
        read true chomping indent state position
            (literalBody indent (state.place = .beforeLine) cs ++ rest) =
          read true chomping indent (cs.foldl take state) q rest := by
  induction cs generalizing state position with
  | nil => exact ⟨position, Nat.le_refl _, hcolumn, rfl⟩
  | cons c cs ih =>
      have hcdirect := hdirect c List.mem_cons_self
      have hrest := fun d hd => hdirect d (List.mem_cons_of_mem c hd)
      rw [literalBody, List.foldl_cons]
      by_cases hbreak : isBreak c = true
      · have hplace : (state.take c).place = .beforeLine := take_of_isBreak hbreak
        obtain ⟨q, hline, hq, hread⟩ := ih (state.take c) (position.nextLine 1)
          hrest fun _ => rfl
        refine ⟨q, Nat.le_trans (Nat.le_succ _) hline, hq, ?_⟩
        rw [if_pos hbreak, List.cons_append, read_cons (Print.ne_of_isDirect hcdirect).2.1,
          if_pos hbreak, ← hread, hplace, take, if_pos hbreak]
        simp
      · rw [Bool.not_eq_true] at hbreak
        obtain ⟨q, hline, hread⟩ := read_visible chomping indent
          (literalBody indent false cs ++ rest) hcdirect hbreak hcolumn
        have hplace : (state.take c).place = .inLine := by
          rw [take, hbreak]
          cases hstate : state.place with
          | inLine => simp
          | beforeLine => rfl
        obtain ⟨q', hline', hq', hread'⟩ := ih (state.take c) q hrest
          fun h => by rw [hplace] at h; cases h
        refine ⟨q', Nat.le_trans hline hline', hq', ?_⟩
        rw [hplace] at hread'
        rw [← hread']
        simpa [hbreak] using hread

/-- A block ends before a line that begins to the left of its lines. -/
theorem read_tail
    {limit : Nat} {tail : List Char} (chomping : Chomping)
    (hplace : state.place = .beforeLine) (hcolumn : position.column = 0)
    (hlimit : limit < indent) (htail : StartsLine limit tail) :
    ∃ m more, tail = spaces m ++ more ∧
      read true chomping indent state position tail =
        some (state.finish chomping, ⟨more, position.advance m⟩) := by
  cases htail with
  | nothing => exact ⟨0, [], rfl, rfl⟩
  | @token m c more hm hc =>
      refine ⟨m, c :: more, rfl, ?_⟩
      obtain ⟨htab, hcr, -, -⟩ := Print.ne_of_isDirect hc.direct
      have hne : ¬ (position.advance m).column = indent := by
        simp only [Position.advance]
        omega
      rw [read_indentation hplace (by omega), read_cons hcr, hplace]
      simp [hc.unbroken, hc.not_space, htab, hne]

/-! ## The end of the text -/

/-- The chomping that a text is written with. -/
def chompingOf (cs : List Char) : Chomping :=
  match chompingHint cs with
  | ['-'] => .strip
  | ['+'] => .keep
  | _ => .clip

theorem finish_keep :
    state.finish .keep = String.ofList state.value := by
  cases hlead : state.lead <;> simp [finish, value, hlead]

theorem finish_clip
    (h : state.breaks = []) :
    state.finish .clip = String.ofList state.value := by
  cases hlead : state.lead <;> simp [finish, value, hlead, h]

theorem finish_strip :
    state.finish .strip = String.ofList state.text.reverse := rfl

/-- A text that ends within a line is closed by a line end that is stripped again. -/
theorem finish_of_not_isBreak
    (hdirect : ∀ d ∈ cs ++ [c], isDirect d = true) (hc : isBreak c = false) :
    ((cs ++ [c]).foldl take {}).place = .inLine ∧
      (((cs ++ [c]).foldl take {}).lineEnd '\n').finish (chompingOf (cs ++ [c])) =
        String.ofList (cs ++ [c]) := by
  have hsettled : ({} : BlockState).Settled := fun h => by cases h
  obtain ⟨hinit, -⟩ := foldl_take cs {} hsettled
    fun d hd => hdirect d (List.mem_append_left _ hd)
  obtain ⟨-, hvalue⟩ := foldl_take _ {} hsettled hdirect
  rw [List.foldl_append, List.foldl_cons, List.foldl_nil] at hvalue ⊢
  obtain ⟨hplace, hlead, hbreaks, -⟩ := take_of_not_isBreak hinit hc
  refine ⟨hplace, ?_⟩
  have hchomping : chompingOf (cs ++ [c]) = .strip := by
    simp [chompingOf, chompingHint, hc]
  have hvalue : ((cs.foldl take {}).take c).value = cs ++ [c] := hvalue
  have htext : ((cs.foldl take {}).take c).text.reverse = cs ++ [c] := by
    simpa only [value, hlead, hbreaks, Option.toList_none, List.reverse_nil,
      List.append_nil] using hvalue
  rw [hchomping, finish_strip, lineEnd, hplace]
  exact congrArg String.ofList htext

/-- Of the line ends at the end of a text one or all are kept, as the text has them. -/
theorem finish_of_isBreak
    (hdirect : ∀ d ∈ cs ++ [c], isDirect d = true) (hc : isBreak c = true) :
    ((cs ++ [c]).foldl take {}).finish (chompingOf (cs ++ [c])) =
      String.ofList (cs ++ [c]) := by
  have hsettled : ({} : BlockState).Settled := fun h => by cases h
  obtain ⟨-, hvalue⟩ := foldl_take _ {} hsettled hdirect
  have hvalue : ((cs ++ [c]).foldl take {}).value = cs ++ [c] := hvalue
  rcases List.eq_nil_or_concat cs with rfl | ⟨before, d, rfl⟩
  · have hchomping : chompingOf ([] ++ [c]) = .keep := by
      simp [chompingOf, chompingHint, hc]
    rw [hchomping, finish_keep, hvalue]
  · rw [List.concat_eq_append] at hdirect hvalue ⊢
    cases hd : isBreak d with
    | true =>
        have hchomping : chompingOf (before ++ [d] ++ [c]) = .keep := by
          simp [chompingOf, chompingHint, hc, hd]
        rw [hchomping, finish_keep, hvalue]
    | false =>
        have hchomping : chompingOf (before ++ [d] ++ [c]) = .clip := by
          simp [chompingOf, chompingHint, hc, hd]
        obtain ⟨hinit, -⟩ := foldl_take before {} hsettled
          fun e he => hdirect e (by simp [he])
        obtain ⟨hplace, -, hbreaks, -⟩ := take_of_not_isBreak hinit hd
        have hend : ((before ++ [d] ++ [c]).foldl take {}).breaks = [] := by
          simp only [List.foldl_append, List.foldl_cons, List.foldl_nil]
          rw [take, if_pos hc, lineEnd, hplace]
          exact hbreaks
        rw [hchomping, finish_clip hend, hvalue]

/-- The lines of a block are read as the text that they were written for. -/
theorem read_lines
    {limit : Nat} {tail : List Char} (indent : Nat)
    (hdirect : ∀ c ∈ cs, isDirect c = true) (hne : cs ≠ [])
    (hcolumn : position.column = 0) (hlimit : limit < indent) (htail : StartsLine limit tail) :
    ∃ (m : Nat) (more : List Char) (q : Position), tail = spaces m ++ more ∧ q.column = 0 ∧
      position.line ≤ q.line ∧
      read true (chompingOf cs) indent {} position
          (literalBody indent true cs ++ (closingBreak cs ++ tail)) =
        some (String.ofList cs, ⟨more, q.advance m⟩) := by
  obtain ⟨q, hline, hq, hread⟩ := read_append (chompingOf cs) indent (closingBreak cs ++ tail) {}
    position hdirect fun _ => hcolumn
  have hread : read true (chompingOf cs) indent {} position
      (literalBody indent true cs ++ (closingBreak cs ++ tail)) = _ := hread
  rw [hread]
  obtain ⟨before, last, rfl⟩ := (List.eq_nil_or_concat cs).resolve_left hne
  rw [List.concat_eq_append] at *
  cases hlast : isBreak last with
  | false =>
      obtain ⟨hplace, hfinish⟩ := finish_of_not_isBreak hdirect hlast
      have hclosing : closingBreak (before ++ [last]) = ['\n'] := by
        simp [closingBreak, hlast]
      rw [hclosing, List.singleton_append, read_cons (by decide),
        if_pos isBreak_newline]
      have hafter : (((before ++ [last]).foldl take {}).lineEnd '\n').place = .beforeLine := by
        rw [lineEnd, hplace]
      obtain ⟨m, more, htail, hend⟩ := read_tail (chompingOf (before ++ [last])) hafter
        (rfl : (q.nextLine 1).column = 0) hlimit htail
      refine ⟨m, more, q.nextLine 1, htail, rfl, Nat.le_trans hline (Nat.le_succ _), ?_⟩
      rw [hend, hfinish]
  | true =>
      have hplace : ((before ++ [last]).foldl take {}).place = .beforeLine := by
        rw [List.foldl_append]
        exact take_of_isBreak hlast
      have hclosing : closingBreak (before ++ [last]) = [] := by
        simp [closingBreak, hlast]
      obtain ⟨m, more, htail, hend⟩ := read_tail (chompingOf (before ++ [last]))
        hplace (hq hplace) hlimit htail
      refine ⟨m, more, q, htail, hq hplace, hline, ?_⟩
      rw [hclosing, List.nil_append, hend, finish_of_isBreak hdirect hlast]

end BlockState

/-! ## The header -/

section Header

variable {cs rest : List Char} {position : Position}

/-- Whether the indentation of a text does not show in its first line. -/
def needsHint (cs : List Char) : Bool :=
  cs.head?.any fun c => c = ' ' || isBreak c

theorem read_header (cs rest : List Char) :
    BlockHeader.read (indentationHint cs ++ (chompingHint cs ++ '\n' :: rest)) =
      some (⟨BlockState.chompingOf cs, if needsHint cs then some 2 else none⟩,
        (indentationHint cs).length + (chompingHint cs).length) := by
  have hhint : indentationHint cs = if needsHint cs then ['2'] else [] := rfl
  have hchomping : chompingHint cs = ['-'] ∨ chompingHint cs = ['+'] ∨ chompingHint cs = [] := by
    unfold chompingHint
    split
    · exact .inl rfl
    · split
      · exact .inl rfl
      · split
        · exact .inr (.inl rfl)
        · exact .inr (.inr rfl)
  rw [BlockState.chompingOf, hhint]
  rcases hchomping with h | h | h <;> rw [h] <;> cases needsHint cs <;> rfl

/-- The columns of the first line of a text show when it begins with neither space nor line end. -/
theorem detectIndent_literalBody
    (indent : Nat) (rest : List Char)
    (hdirect : ∀ c ∈ cs, isDirect c = true) (hne : cs ≠ []) (hhint : needsHint cs = false)
    (hcolumn : position.column = 0) :
    ∃ text, literalBody indent true cs ++ rest = spaces indent ++ text ∧
      detectIndent 0 [] position (literalBody indent true cs ++ rest) =
        some (indent, [], ⟨text, position.advance indent⟩) := by
  have hspaces : ∀ (n : Nat) (p : Position) (more : List Char),
      detectIndent 0 [] p (spaces n ++ more) = detectIndent 0 [] (p.advance n) more := by
    intro n
    induction n with
    | zero => exact fun _ _ => rfl
    | succ n ih =>
        intro p more
        rw [Print.spaces_succ, List.cons_append, detectIndent, ih]
        congr 1
        simp only [Position.advance, Position.mk.injEq, true_and]
        omega
  cases cs with
  | nil => exact absurd rfl hne
  | cons c cs =>
      have hcdirect := hdirect c List.mem_cons_self
      obtain ⟨htab, hcr, -, -⟩ := Print.ne_of_isDirect hcdirect
      simp only [needsHint, List.head?_cons, Option.any_some, Bool.or_eq_false_iff,
        decide_eq_false_iff_not] at hhint
      obtain ⟨hspace, hbreak⟩ := hhint
      have htext : literalBody indent true (c :: cs) ++ rest =
          spaces indent ++ c :: (literalBody indent false cs ++ rest) := by
        simp [literalBody, hbreak]
      refine ⟨_, htext, ?_⟩
      rw [htext, hspaces, detectIndent]
      · simp [hbreak, Position.advance, hcolumn]
      · exact fun h => hspace h
      · exact fun h => htab h
      · exact fun _ h => absurd h hcr

/-- A text that may be written as a literal block is read back from one. -/
theorem readBlock_literal
    {parent : Nat} {tail : List Char} (position : Position)
    (h : allowsLiteral cs = true) (hne : cs ≠ []) (htail : StartsLine parent tail) :
    ∃ (m : Nat) (more : List Char) (q : Position), tail = spaces m ++ more ∧ q.column = 0 ∧
      position.line < q.line ∧
      readBlock true parent ⟨Print.literal (parent + 2) cs ++ tail, position⟩ =
        some (String.ofList cs, ⟨more, q.advance m⟩) := by
  have hdirect : ∀ c ∈ cs, isDirect c = true := by
    simp only [allowsLiteral, Print.isTidy, Bool.and_eq_true, List.all_eq_true] at h
    exact h.1.1
  let body := literalBody (parent + 2) true cs ++ (closingBreak cs ++ tail)
  let used := (indentationHint cs).length + (chompingHint cs).length
  let start := (((position.advance 1).advance used).advance 0).nextLine 1
  have htext : Print.literal (parent + 2) cs ++ tail =
      '|' :: (indentationHint cs ++ (chompingHint cs ++ '\n' :: body)) := by
    simp [Print.literal, body]
  have hheader : BlockHeader.read (indentationHint cs ++ (chompingHint cs ++ '\n' :: body)) =
      some (⟨BlockState.chompingOf cs, if needsHint cs then some 2 else none⟩, used) :=
    read_header cs body
  have hskip : (Cursor.advance ⟨indentationHint cs ++ (chompingHint cs ++ '\n' :: body),
      position.advance 1⟩ used).skipToLineEnd = ⟨'\n' :: body,
        ((position.advance 1).advance used).advance 0⟩ := by
    have hdrop : (indentationHint cs ++ (chompingHint cs ++ '\n' :: body)).drop used =
        '\n' :: body := by
      rw [← List.append_assoc]
      exact List.drop_left' (by simp [used])
    rw [Cursor.advance, hdrop]
    rfl
  obtain ⟨m, more, q, hmore, hq, hline, hread⟩ := BlockState.read_lines (parent + 2) hdirect
    hne (rfl : start.column = 0) (by omega) htail
  refine ⟨m, more, q, hmore, hq, hline, ?_⟩
  have hblock : readBlock true parent ⟨Print.literal (parent + 2) cs ++ tail, position⟩ =
      BlockState.read true (BlockState.chompingOf cs) (parent + 2) {} start body := by
    have hopen : Cursor.advance ⟨'|' :: (indentationHint cs ++ (chompingHint cs ++ '\n' :: body)),
        position⟩ 1 = ⟨indentationHint cs ++ (chompingHint cs ++ '\n' :: body),
          position.advance 1⟩ := rfl
    have hbreak : Cursor.skipBreak ⟨'\n' :: body, ((position.advance 1).advance used).advance 0⟩ =
        ⟨body, start⟩ := rfl
    have hguard : (guard True : Option Unit) = some () := rfl
    rw [htext, readBlock, hopen]
    simp only [hheader, Option.bind_eq_bind, Option.bind_some, hskip, atLineEnd,
      isBreak_newline, hguard, hbreak]
    cases hhint : needsHint cs with
    | true =>
        have hindent : (if 0 ≤ (parent : Int) then (parent : Int) else 0).toNat + 2 = parent + 2 := by
          omega
        simp only [if_true, hindent]
    | false =>
        obtain ⟨text, hbody, hdetect⟩ := detectIndent_literalBody (parent + 2)
          (closingBreak cs ++ tail) hdirect hne hhint (rfl : start.column = 0)
        have hbody : body = spaces (parent + 2) ++ text := hbody
        have hdetect : detectIndent 0 [] start body = _ := hdetect
        have hindent : max (max (parent + 2) ((parent : Int) + 1).toNat) 1 = parent + 2 := by
          omega
        simp only [hdetect, Bool.false_eq_true, if_false, Option.bind_some, hindent]
        rw [hbody, BlockState.read_indentation rfl (Nat.le_of_eq (Nat.zero_add _))]
  rw [hblock, hread]

end Header

end LibraryModels.Yaml
