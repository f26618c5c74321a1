import LibraryModels.Proofs.Yaml.Literal
import LibraryModels.Proofs.Yaml.Plain
import LibraryModels.Proofs.Yaml.Quoted
import LibraryModels.Yaml.Token.Stream

/-!
# The scanner in block context

The scanner is looked at between tokens.  Before every token it settles: it passes over the gap,
gives up possible keys of earlier lines and closes the collections to the right.  Scanners that
settle to the same go on alike, which is what lets the state after a value be described by the
start of the next line, however the value ended.
-/

namespace LibraryModels.Yaml

open Print (spaces StartsToken StartsLine)

namespace Scanner

/-- The scanner in front of its next token. -/
def settle (s : Scanner) : Option Scanner := do
  let s ← s.toNextToken.dropStaleKeys
  return s.unroll s.column

theorem run_succ (fuel : Nat) (s : Scanner) :
    run (fuel + 1) s = s.settle.bind fun s =>
      match s.cursor.rest with
      | [] => s.finish
      | c :: rest => (s.readToken c rest).bind (run fuel) := by
  rw [run, settle]
  cases s.toNextToken.dropStaleKeys <;> rfl

/--
The scanner `s` comes to `t`: what is read from `s` on is what is read from `t` on, and there are
as many steps left as there are characters.
-/
def Reaches (s t : Scanner) : Prop :=
  ∀ fuel, s.cursor.rest.length < fuel →
    ∃ fuel', t.cursor.rest.length < fuel' ∧ run fuel s = run fuel' t

theorem Reaches.refl (s : Scanner) : Reaches s s :=
  fun fuel h => ⟨fuel, h, rfl⟩

theorem Reaches.trans
    {s t u : Scanner}
    (hst : Reaches s t) (htu : Reaches t u) :
    Reaches s u := by
  intro fuel h
  obtain ⟨fuel', h', hrun⟩ := hst fuel h
  obtain ⟨fuel'', h'', hrun'⟩ := htu fuel' h'
  exact ⟨fuel'', h'', hrun.trans hrun'⟩

/-- Scanners that settle alike go on alike. -/
theorem Reaches.of_settle_eq
    {s t : Scanner}
    (hsettle : s.settle = t.settle) (hlength : t.cursor.rest.length ≤ s.cursor.rest.length) :
    Reaches s t := by
  intro fuel h
  obtain ⟨fuel, rfl⟩ := Nat.exists_eq_add_one_of_ne_zero (Nat.ne_zero_of_lt h)
  exact ⟨fuel + 1, by omega, by rw [run_succ, run_succ, hsettle]⟩

/-- One token. -/
theorem Reaches.token
    {s u v t : Scanner} {c : Char} {rest : List Char}
    (hsettle : s.settle = some u) (hrest : u.cursor.rest = c :: rest)
    (hread : u.readToken c rest = some v) (hsame : v.settle = t.settle)
    (hlength : t.cursor.rest.length < s.cursor.rest.length) :
    Reaches s t := by
  intro fuel h
  obtain ⟨fuel, rfl⟩ := Nat.exists_eq_add_one_of_ne_zero (Nat.ne_zero_of_lt h)
  obtain ⟨fuel, rfl⟩ := Nat.exists_eq_add_one_of_ne_zero (n := fuel) (by omega)
  refine ⟨fuel + 1, by omega, ?_⟩
  rw [run_succ, hsettle, Option.bind_some, hrest]
  show (u.readToken c rest).bind (run (fuel + 1)) = _
  rw [hread, Option.bind_some, run_succ, run_succ, hsame]

/-- A scanner outside of flow collections, with its tokens in the order of the text. -/
def block (tokens : List Token) (indent : Int) (outer : List Int) (keyAllowed : Bool)
    (key : Option PossibleKey) (position : Position) (rest : List Char) : Scanner where
  cursor := ⟨rest, position⟩
  tokens := tokens.reverse
  count := tokens.length
  indent := indent
  outer := outer
  keyAllowed := keyAllowed
  key := key
  outerKeys := []

variable {tokens more : List Token} {indent column : Int} {outer : List Int} {keyAllowed : Bool}
  {key : Option PossibleKey} {position p q : Position} {rest rest' : List Char} {token : Token}
  {c : Char}

@[simp] theorem block_inFlow :
    (block tokens indent outer keyAllowed key position rest).inFlow = false := rfl

@[simp] theorem block_column :
    (block tokens indent outer keyAllowed key position rest).column = position.column := rfl

@[simp] theorem block_rest :
    (block tokens indent outer keyAllowed key position rest).cursor.rest = rest := rfl

@[simp] theorem block_keyAllowed :
    (block tokens indent outer keyAllowed key position rest).keyAllowed = keyAllowed := rfl

@[simp] theorem block_dropKey :
    (block tokens indent outer keyAllowed none position rest).dropKey =
      some (block tokens indent outer keyAllowed none position rest) := rfl

@[simp] theorem block_emit :
    (block tokens indent outer keyAllowed key position rest).emit token =
      block (tokens ++ [token]) indent outer keyAllowed key position rest := by
  simp [block, emit]

@[simp] theorem block_allowKey (allowed : Bool) :
    (block tokens indent outer keyAllowed key position rest).allowKey allowed =
      block tokens indent outer allowed key position rest := rfl

@[simp] theorem block_moveTo (cursor : Cursor) :
    (block tokens indent outer keyAllowed key position rest).moveTo cursor =
      block tokens indent outer keyAllowed key cursor.position cursor.rest := rfl

@[simp] theorem block_skip_one :
    (block tokens indent outer keyAllowed key position (c :: rest)).skip 1 =
      block tokens indent outer keyAllowed key (position.advance 1) rest := rfl

theorem block_insertAt :
    (block (tokens ++ more) indent outer keyAllowed key position rest).insertAt tokens.length token =
      block (tokens ++ token :: more) indent outer keyAllowed key position rest := by
  have hlater : (tokens ++ more).length - tokens.length = more.reverse.length := by
    simp
  simp only [block, insertAt, hlater, List.reverse_append, List.take_left, List.drop_left]
  simp
  omega

/-! ## Settling -/

theorem unroll_of_le
    (h : indent ≤ column) :
    (block tokens indent outer keyAllowed key position rest).unroll column =
      block tokens indent outer keyAllowed key position rest := by
  have hlt : ¬ column < indent := by omega
  rw [unroll, block_inFlow]
  cases outer with
  | nil => rfl
  | cons parent outer => simp [block, closeBlocks, hlt]

/-- A collection to the right of a column is closed. -/
theorem unroll_of_lt
    {parent : Int}
    (h : column < indent) :
    (block tokens indent (parent :: outer) keyAllowed key position rest).unroll column =
      (block (tokens ++ [.blockEnd]) parent outer keyAllowed key position rest).unroll column := by
  have hclose : (block tokens indent (parent :: outer) keyAllowed key position rest).closeBlocks
      column (parent :: outer) =
        (block (tokens ++ [.blockEnd]) parent outer keyAllowed key position rest).closeBlocks
          column outer := by
    have hlt : column <
        (block tokens indent (parent :: outer) keyAllowed key position rest).indent := h
    rw [closeBlocks, if_pos hlt, block_emit]
    rfl
  rw [unroll, unroll, block_inFlow, block_inFlow]
  exact hclose

/-- A possible key that is given up on a line. -/
def Lapsed (key : Option PossibleKey) (line : Nat) : Prop :=
  ∀ k, key = some k → k.required = false ∧ k.position.line < line

theorem lapsed_none (line : Nat) : Lapsed none line :=
  fun _ h => by cases h

theorem dropStaleKeys_of_lapsed
    (h : Lapsed key position.line) :
    (block tokens indent outer keyAllowed key position rest).dropStaleKeys =
      some (block tokens indent outer keyAllowed none position rest) := by
  cases key with
  | none => rfl
  | some k =>
      obtain ⟨hrequired, hline⟩ := h k rfl
      have hstale : (block tokens indent outer keyAllowed (some k) position rest).isStale k =
          true := by
        simp [isStale, block, hline]
      simp [dropStaleKeys, refresh, block] at hstale ⊢
      simp [hstale, giveUp, hrequired]

/-- Up to the next token there is only the gap. -/
theorem toNextToken_block
    {allowed : Bool}
    (hstart : rest.head? ≠ some '\uFEFF')
    (hskip : skipGap false keyAllowed false position rest = (allowed, ⟨rest', p⟩)) :
    (block tokens indent outer keyAllowed key position rest).toNextToken =
      block tokens indent outer allowed key p rest' := by
  have hmark : ¬ (position.index = 0 ∧ rest.head? = some '\uFEFF') := fun h => hstart h.2
  simp [toNextToken, block, inFlow, hmark, hskip]

/-- The scanner settles on what comes after the gap. -/
theorem settle_block
    {allowed : Bool}
    (hstart : rest.head? ≠ some '\uFEFF')
    (hskip : skipGap false keyAllowed false position rest = (allowed, ⟨rest', p⟩))
    (hkey : Lapsed key p.line) :
    (block tokens indent outer keyAllowed key position rest).settle =
      some ((block tokens indent outer allowed none p rest').unroll p.column) := by
  rw [settle, toNextToken_block hstart hskip, dropStaleKeys_of_lapsed hkey]
  rfl

/-! ## Gaps -/

theorem skipGap_spaces (n : Nat) :
    skipGap false keyAllowed false position (spaces n ++ rest) =
      skipGap false keyAllowed false (position.advance n) rest := by
  induction n generalizing position with
  | zero => rfl
  | succ n ih =>
      rw [Print.spaces_succ, List.cons_append, skipGap]
      · simp only [isBreak_space, Bool.false_eq_true, if_false, decide_true, Bool.or_true,
          Bool.true_or, if_true]
        rw [ih]
        congr 1
        simp only [Position.advance, Position.mk.injEq, true_and]
        omega
      · intro rest' h
        cases h

theorem skipGap_token
    (h : StartsToken c) :
    skipGap false keyAllowed false position (c :: rest) =
      (keyAllowed, ⟨c :: rest, position⟩) := by
  obtain ⟨htab, hcr, -, -⟩ := Print.ne_of_isDirect h.direct
  rw [skipGap]
  · simp [h.unbroken, h.not_space, h.not_comment, htab]
  · intro rest' hc
    exact absurd hc hcr

theorem skipGap_newline :
    skipGap false keyAllowed false position ('\n' :: rest) =
      skipGap false true false (position.nextLine 1) rest := by
  rw [skipGap]
  · simp
  · intro rest' h
    cases h

/-- A value ends where the gap after it leads to the start of the next line. -/
structure EndsLine (s : Scanner) (tail : List Char) (p : Position) : Prop where
  column : p.column = 0
  skip : skipGap false s.keyAllowed false s.cursor.position s.cursor.rest =
    skipGap false true false p tail
  key : Lapsed s.key p.line
  start : s.cursor.rest.head? ≠ some '\uFEFF'

/-- The state at the start of a line. -/
theorem skipGap_line
    {limit : Nat} {tail : List Char}
    (h : StartsLine limit tail) :
    ∃ m more, m ≤ limit ∧ tail = spaces m ++ more ∧
      skipGap false true false p tail = (true, ⟨more, p.advance m⟩) := by
  cases h with
  | nothing => exact ⟨0, [], Nat.zero_le _, rfl, rfl⟩
  | @token m c more hm hc =>
      exact ⟨m, c :: more, hm, rfl, by rw [skipGap_spaces, skipGap_token hc]⟩

/-- The scanner after a value settles as at the start of the next line. -/
theorem settle_of_endsLine
    {limit : Nat} {tail : List Char}
    (htail : StartsLine limit tail)
    (h : (block tokens indent outer keyAllowed key position rest).EndsLine tail p) :
    (block tokens indent outer keyAllowed key position rest).settle =
      (block tokens indent outer true none p tail).settle := by
  obtain ⟨m, more, -, -, hskip⟩ := skipGap_line (p := p) htail
  have hgap : skipGap false keyAllowed false position rest = (true, ⟨more, p.advance m⟩) :=
    h.skip.trans hskip
  have hkey : Lapsed key (p.advance m).line := h.key
  have hstart : rest.head? ≠ some '\uFEFF' := h.start
  rw [settle_block hstart hgap hkey, settle_block htail.head?_ne hskip (lapsed_none _)]

/-- A collection ends where a line begins to its left. -/
theorem settle_blockEnd
    {limit : Nat} {tail : List Char} {parent : Int}
    (htail : StartsLine limit tail) (hlimit : (limit : Int) < indent) (hcolumn : p.column = 0) :
    (block tokens indent (parent :: outer) true none p tail).settle =
      (block (tokens ++ [.blockEnd]) parent outer true none p tail).settle := by
  obtain ⟨m, more, hm, -, hskip⟩ := skipGap_line (p := p) htail
  rw [settle_block htail.head?_ne hskip (lapsed_none _),
    settle_block htail.head?_ne hskip (lapsed_none _), unroll_of_lt]
  simp only [Position.advance]
  omega

end Scanner

end LibraryModels.Yaml
