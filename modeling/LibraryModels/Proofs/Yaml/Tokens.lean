import LibraryModels.Proofs.Yaml.Scanner

/-!
# The tokens of a printed text

One lemma for every way in which a written document goes on: the dash of an item, a key with its
colon, and the scalars at the end of a line.  Each says which tokens are read and where the
scanner is afterwards.
-/

namespace LibraryModels.Yaml

open Print (spaces StartsToken StartsLine PlainText)

namespace Scanner

variable {tokens more : List Token} {indent : Int} {outer : List Int} {keyAllowed : Bool}
  {key : Option PossibleKey} {position p q : Position} {rest tail cs : List Char} {token : Token}
  {c : Char}

/-! ## Gaps and collections -/

theorem head?_ne
    (hc : StartsToken c) :
    (c :: rest).head? ≠ some '\uFEFF' := by
  simpa using (Print.ne_of_isDirect hc.direct).2.2.2

/-- Nothing lies before a token. -/
theorem settle_token
    (hc : StartsToken c) (hindent : indent ≤ position.column) (hkey : Lapsed key position.line) :
    (block tokens indent outer keyAllowed key position (c :: rest)).settle =
      some (block tokens indent outer keyAllowed none position (c :: rest)) := by
  rw [settle_block (head?_ne hc) (skipGap_token hc) hkey, unroll_of_le hindent]

/-- One token in front of the scanner. -/
theorem reaches_token
    {s : Scanner}
    (hc : StartsToken c) (hindent : indent ≤ position.column)
    (hread : (block tokens indent outer keyAllowed none position (c :: rest)).readToken c rest =
      some s)
    (hlength : s.cursor.rest.length ≤ rest.length) :
    Reaches (block tokens indent outer keyAllowed none position (c :: rest)) s := by
  have hless : s.cursor.rest.length <
      (block tokens indent outer keyAllowed none position (c :: rest)).cursor.rest.length := by
    rw [block_rest, List.length_cons]
    omega
  exact .token (settle_token hc hindent (lapsed_none _)) rfl hread rfl hless

/-- Spaces before a token. -/
theorem reaches_spaces
    (hc : StartsToken c) (n : Nat) :
    Reaches (block tokens indent outer keyAllowed none position (spaces n ++ c :: rest))
      (block tokens indent outer keyAllowed none (position.advance n) (c :: rest)) := by
  have hstart : (spaces n ++ c :: rest).head? ≠ some '\uFEFF' :=
    (StartsLine.token (Nat.le_refl n) hc).head?_ne
  have hskip : skipGap false keyAllowed false position (spaces n ++ c :: rest) =
      (keyAllowed, ⟨c :: rest, position.advance n⟩) := by
    rw [skipGap_spaces, skipGap_token hc]
  refine .of_settle_eq ?_ (by simp)
  rw [settle_block hstart hskip (lapsed_none _),
    settle_block (head?_ne hc) (skipGap_token hc) (lapsed_none _)]

/-- The end of a line and the indentation of the next one before a token. -/
theorem reaches_line
    (hc : StartsToken c) (n : Nat) :
    Reaches (block tokens indent outer keyAllowed none position ('\n' :: (spaces n ++ c :: rest)))
      (block tokens indent outer true none ((position.nextLine 1).advance n) (c :: rest)) := by
  have hskip : skipGap false keyAllowed false position ('\n' :: (spaces n ++ c :: rest)) =
      (true, ⟨c :: rest, (position.nextLine 1).advance n⟩) := by
    rw [skipGap_newline, skipGap_spaces, skipGap_token hc]
  refine .of_settle_eq ?_ (by simp; omega)
  rw [settle_block (by simp) hskip (lapsed_none _),
    settle_block (head?_ne hc) (skipGap_token hc) (lapsed_none _)]

/-- The token that opens a collection at a column, if none is open there. -/
def opening (indent column : Int) (token : Token) : List Token :=
  if indent < column then [token] else []

/-- The columns around a collection at a column, which may be open already. -/
def around (indent column : Int) (outer : List Int) : List Int :=
  if indent < column then indent :: outer else outer

@[simp] theorem opening_self : opening indent indent token = [] :=
  if_neg (Int.lt_irrefl indent)

@[simp] theorem around_self : around indent indent outer = outer :=
  if_neg (Int.lt_irrefl indent)

theorem roll_block
    {column : Int}
    (h : indent ≤ column) :
    (block (tokens ++ more) indent outer keyAllowed key position rest).roll column tokens.length
        token =
      block (tokens ++ (opening indent column token ++ more)) column (around indent column outer)
        keyAllowed key position rest := by
  rw [roll, block_inFlow, opening, around]
  by_cases hlt : indent < column
  · have hopen : (block (tokens ++ more) indent outer keyAllowed key position rest).indent <
        column := hlt
    rw [if_neg Bool.false_ne_true, if_pos hopen, block_insertAt]
    simp [block, hlt]
  · obtain rfl : indent = column := by omega
    have hopen : ¬ (block (tokens ++ more) indent outer keyAllowed key position rest).indent <
        indent := Int.lt_irrefl _
    rw [if_neg Bool.false_ne_true, if_neg hopen]
    simp

/-! ## Items -/

theorem readToken_dash
    (h : atSpace rest = true) :
    (block tokens indent outer keyAllowed key position ('-' :: rest)).readToken '-' rest =
      (block tokens indent outer keyAllowed key position ('-' :: rest)).blockEntry := by
  have hmark : atDocumentMark ('-' :: rest) = false := by
    cases rest with
    | nil => rfl
    | cons c rest =>
        have hdash : c ≠ '-' := by
          rintro rfl
          cases h
        simp [atDocumentMark, hdash]
  simp [readToken, hmark, h]

/-- The dash of an item, which begins a sequence if none is open in its column. -/
theorem reaches_item
    (h : atSpace rest = true) (hindent : indent ≤ position.column) :
    Reaches (block tokens indent outer true none position ('-' :: rest))
      (block (tokens ++ opening indent position.column .blockSequenceStart ++ [.blockEntry])
        position.column (around indent position.column outer) true none (position.advance 1)
        rest) := by
  have htoken : StartsToken '-' := ⟨rfl, rfl, by decide, by decide⟩
  have hroll : (block tokens indent outer true none position ('-' :: rest)).rollHere
      .blockSequenceStart =
        block (tokens ++ opening indent position.column .blockSequenceStart) position.column
          (around indent position.column outer) true none position ('-' :: rest) := by
    have hblock : (block (tokens ++ []) indent outer true none position ('-' :: rest)).roll
        position.column tokens.length .blockSequenceStart = _ := roll_block hindent
    rw [List.append_nil, List.append_nil] at hblock
    exact hblock
  refine reaches_token htoken hindent ?_ (Nat.le_refl _)
  rw [readToken_dash h, blockEntry, hroll]
  simp [guard]

/-! ## Keys -/

/-- The key that may begin at a place outside of flow collections. -/
def keyAt (tokens : List Token) (indent : Int) (allowed : Bool) (position : Position) :
    Option PossibleKey :=
  if allowed then some ⟨tokens.length, position, indent = position.column⟩ else none

theorem saveKey_block :
    (block tokens indent outer keyAllowed none position rest).saveKey =
      some (block tokens indent outer keyAllowed (keyAt tokens indent keyAllowed position) position
        rest) := by
  cases keyAllowed <;> rfl

/-- A possible key to the right of its collection lapses with its line. -/
theorem lapsed_keyAt
    {line : Nat}
    (hindent : indent < position.column) (hline : position.line < line) :
    Lapsed (keyAt tokens indent keyAllowed position) line := by
  intro k hk
  cases keyAllowed with
  | false => cases hk
  | true =>
      cases hk
      exact ⟨decide_eq_false (by omega), hline⟩

theorem keyToken_block
    {read : Cursor → Option (Token × Cursor)}
    (h : read ⟨rest, position⟩ = some (token, ⟨tail, q⟩)) :
    (block tokens indent outer keyAllowed none position rest).keyToken read =
      some (block (tokens ++ [token]) indent outer false
        (keyAt tokens indent keyAllowed position) q tail) := by
  rw [keyToken, saveKey_block]
  show (read ⟨rest, position⟩).bind _ = _
  rw [h]
  simp

theorem plainScalar_block
    {scalar : PlainScalar}
    (h : readPlain false (indent + 1) ⟨rest, position⟩ = some scalar) :
    (block tokens indent outer keyAllowed none position rest).plainScalar =
      some (block (tokens ++ [.scalar scalar.text .plain]) indent outer scalar.folded
        (keyAt tokens indent keyAllowed position) scalar.after.position scalar.after.rest) := by
  rw [plainScalar, saveKey_block]
  show (readPlain false (indent + 1) ⟨rest, position⟩).bind _ = _
  rw [h]
  simp

theorem blockScalar_block
    {text : String}
    (h : readBlock true indent ⟨rest, position⟩ = some (text, ⟨tail, q⟩)) :
    (block tokens indent outer keyAllowed none position rest).blockScalar true =
      some (block (tokens ++ [.scalar text .literal]) indent outer true none q tail) := by
  rw [blockScalar, block_dropKey]
  show (readBlock true indent ⟨rest, position⟩).bind _ = _
  rw [h]
  simp

theorem readToken_bar :
    (block tokens indent outer keyAllowed key position ('|' :: rest)).readToken '|' rest =
      (block tokens indent outer keyAllowed key position ('|' :: rest)).blockScalar true := by
  have hmark : atDocumentMark ('|' :: rest) = false := rfl
  simp [readToken, hmark]

/-- A plain text is read as a plain scalar, whatever ends it. -/
theorem readToken_plain
    {d : Char}
    (h : PlainText (c :: cs)) (hdash : d ≠ '-') (hdot : d ≠ '.') :
    (block tokens indent outer keyAllowed key position (c :: (cs ++ d :: rest))).readToken c
        (cs ++ d :: rest) =
      (block tokens indent outer keyAllowed key position
        (c :: (cs ++ d :: rest))).plainScalar := by
  have hmark : atDocumentMark (c :: (cs ++ d :: rest)) = false :=
    h.atDocumentMark_append hdash hdot
  have hindicator := h.unindicated
  rw [Print.startsWithIndicator, Bool.or_eq_false_iff] at hindicator
  obtain ⟨hlead, hmarks⟩ := hindicator
  simp only [Print.isLeadIndicator, List.mem_cons, List.not_mem_nil, or_false,
    decide_eq_false_iff_not, not_or] at hlead
  have hspace : isSpace c = false := by
    rw [isSpace, h.startsToken.isBlank_eq_false, h.startsToken.unbroken]
    rfl
  by_cases hspecial : c = '-' ∨ c = '?' ∨ c = ':'
  · have hrun : atSpace cs = false := by
      rcases hspecial with rfl | rfl | rfl <;> simpa using hmarks
    have hnext : atSpace (cs ++ d :: rest) = false ∧ atBlank (cs ++ d :: rest) = false := by
      cases cs with
      | nil => cases hrun
      | cons e cs =>
          refine ⟨hrun, ?_⟩
          simp only [atSpace, isSpace, Bool.or_eq_false_iff] at hrun
          exact hrun.1
    have hplain : startsPlain false c (cs ++ d :: rest) = true := by
      rcases hspecial with rfl | rfl | rfl <;> simp [startsPlain, hnext]
    rcases hspecial with rfl | rfl | rfl <;> simp [readToken, hmark, hnext, hplain]
  · simp only [not_or] at hspecial
    have hplain : startsPlain false c (cs ++ d :: rest) = true := by
      simp [startsPlain, hspace, isIndicator, hlead, hspecial]
    simp [readToken, hmark, hlead, hspecial, hplain]

theorem readToken_colon
    (h : atSpace rest = true) :
    (block tokens indent outer keyAllowed key position (':' :: rest)).readToken ':' rest =
      (block tokens indent outer keyAllowed key position (':' :: rest)).valueMark := by
  have hmark : atDocumentMark (':' :: rest) = false := rfl
  simp [readToken, hmark, h]

/-- A key is in front of its colon: on the same line, and not too far before it. -/
theorem settle_colon
    {k : PossibleKey}
    (hindent : indent ≤ position.column) (hline : k.position.line = position.line)
    (hnear : position.index ≤ k.position.index + 1024) :
    (block tokens indent outer keyAllowed (some k) position (':' :: rest)).settle =
      some (block tokens indent outer keyAllowed (some k) position (':' :: rest)) := by
  have htoken : StartsToken ':' := ⟨rfl, rfl, by decide, by decide⟩
  have hfresh : (block tokens indent outer keyAllowed (some k) position (':' :: rest)).isStale k =
      false :=
    Bool.or_eq_false_iff.mpr
      ⟨decide_eq_false (by rw [hline]; exact Nat.lt_irrefl _),
        decide_eq_false (Nat.not_lt.mpr hnear)⟩
  have hkeep : (block tokens indent outer keyAllowed (some k) position
      (':' :: rest)).dropStaleKeys =
        some (block tokens indent outer keyAllowed (some k) position (':' :: rest)) := by
    simp [dropStaleKeys, refresh, block] at hfresh ⊢
    simp [hfresh]
  rw [settle, toNextToken_block (head?_ne htoken) (skipGap_token htoken), hkeep]
  exact congrArg some (unroll_of_le hindent)

theorem valueMark_of_key
    {s : Scanner} {k : PossibleKey}
    (h : s.key = some k) :
    s.valueMark =
      some (((Scanner.allowKey
        { (s.insertAt k.tokens .key).roll k.position.column k.tokens .blockMappingStart with
          key := none } false).skip 1).emit .value) := by
  rw [valueMark, h]
  rfl

/-- A colon turns what began at the possible key into a key. -/
theorem valueMark_block
    {required : Bool}
    (hindent : indent ≤ q.column) :
    (block (tokens ++ more) indent outer keyAllowed (some ⟨tokens.length, q, required⟩) position
        (c :: rest)).valueMark =
      some (block (tokens ++ opening indent q.column .blockMappingStart ++
          (.key :: more ++ [.value])) q.column (around indent q.column outer) false none
        (position.advance 1) rest) := by
  let k : PossibleKey := ⟨tokens.length, q, required⟩
  let opened := tokens ++ (opening indent q.column .blockMappingStart ++ .key :: more)
  have hroll : ((block (tokens ++ more) indent outer keyAllowed (some k) position
      (c :: rest)).insertAt tokens.length .key).roll q.column tokens.length .blockMappingStart =
        block opened q.column (around indent q.column outer) keyAllowed (some k) position
          (c :: rest) := by
    rw [block_insertAt, roll_block hindent]
  have hemit : ((block opened q.column (around indent q.column outer) false none position
      (c :: rest)).skip 1).emit .value =
        block (opened ++ [.value]) q.column (around indent q.column outer) false none
          (position.advance 1) rest := by
    rw [block_skip_one, block_emit]
  rw [valueMark_of_key rfl, hroll]
  refine (congrArg some hemit).trans ?_
  simp [opened]

/-- A plain key with its colon, which begins a mapping if none is open in its column. -/
theorem reaches_key
    (h : PlainText cs) (hshort : cs.length ≤ 1024) (hrest : atSpace rest = true)
    (hindent : indent ≤ position.column) :
    Reaches (block tokens indent outer true none position (cs ++ ':' :: rest))
      (block (tokens ++ opening indent position.column .blockMappingStart ++
          [.key, .scalar (String.ofList cs) .plain, .value])
        position.column (around indent position.column outer) false none
        (position.advance (cs.length + 1)) rest) := by
  let scalar := block (tokens ++ [.scalar (String.ofList cs) .plain]) indent outer false
    (keyAt tokens indent true position) (position.advance cs.length) (':' :: rest)
  have hkey : Reaches (block tokens indent outer true none position (cs ++ ':' :: rest))
      scalar := by
    obtain ⟨c, cs, rfl⟩ := List.exists_cons_of_ne_nil h.nonempty
    refine reaches_token h.startsToken hindent ?_ (by simp [scalar])
    have hread : readPlain false (indent + 1) ⟨c :: (cs ++ ':' :: rest), position⟩ =
        some ⟨String.ofList (c :: cs), false,
          ⟨':' :: rest, position.advance (c :: cs).length⟩⟩ :=
      readPlain_key h (by omega) hrest
    exact (readToken_plain h (by decide) (by decide)).trans (plainScalar_block hread)
  have hcolon : Reaches scalar (block (tokens ++ opening indent position.column
      .blockMappingStart ++ [.key, .scalar (String.ofList cs) .plain, .value]) position.column
        (around indent position.column outer) false none (position.advance (cs.length + 1))
        rest) := by
    have hnear : (position.advance cs.length).index ≤ position.index + 1024 := by
      simp only [Position.advance]
      omega
    have hright : indent ≤ (position.advance cs.length).column := by
      simp only [Position.advance]
      omega
    refine .token (settle_colon hright rfl hnear) rfl ?_ rfl (by simp [scalar])
    rw [readToken_colon hrest, valueMark_block hindent]
    simp [Position.advance, Nat.add_assoc]
  exact hkey.trans hcolon

/-! ## Scalars at the end of a line -/

/-- The last token of a value, after which the next line begins. -/
theorem reaches_lastToken
    {limit : Nat} {rest' : List Char} {allowed : Bool}
    (hc : StartsToken c) (hindent : indent ≤ position.column)
    (hread : (block tokens indent outer keyAllowed none position (c :: rest)).readToken c rest =
      some (block more indent outer allowed key q rest'))
    (htail : StartsLine limit tail)
    (hends : (block more indent outer allowed key q rest').EndsLine tail p)
    (hlength : tail.length ≤ rest.length) :
    Reaches (block tokens indent outer keyAllowed none position (c :: rest))
      (block more indent outer true none p tail) := by
  have hless : tail.length <
      (block tokens indent outer keyAllowed none position (c :: rest)).cursor.rest.length := by
    rw [block_rest, List.length_cons]
    omega
  exact .token (settle_token hc hindent (lapsed_none _)) rfl hread
    (settle_of_endsLine htail hends) hless

/-- The scanner comes to the start of a line, with its tokens. -/
def ReachesLine (s : Scanner) (tokens : List Token) (indent : Int) (outer : List Int)
    (tail : List Char) : Prop :=
  ∃ p, p.column = 0 ∧ Reaches s (block tokens indent outer true none p tail)

theorem Reaches.line
    {s t : Scanner}
    (hst : Reaches s t) (ht : ReachesLine t tokens indent outer tail) :
    ReachesLine s tokens indent outer tail := by
  obtain ⟨p, hp, hreaches⟩ := ht
  exact ⟨p, hp, hst.trans hreaches⟩

theorem ReachesLine.trans
    {s : Scanner} {indent' : Int} {outer' : List Int} {tail' : List Char}
    (hs : ReachesLine s tokens indent outer tail)
    (hline : ∀ p, p.column = 0 →
      ReachesLine (block tokens indent outer true none p tail) more indent' outer' tail') :
    ReachesLine s more indent' outer' tail' := by
  obtain ⟨p, hp, hreaches⟩ := hs
  exact hreaches.line (hline p hp)

/-- A value may take in some of the indentation of the next line. -/
theorem endsLine_indented
    {limit m : Nat}
    (htail : StartsLine limit (spaces m ++ rest)) (hcolumn : q.column = 0)
    (hkey : Lapsed key q.line) :
    (block tokens indent outer true key (q.advance m) rest).EndsLine (spaces m ++ rest) q where
  column := hcolumn
  skip := (skipGap_spaces m).symm
  key := hkey
  start := htail.of_spaces.head?_ne

theorem endsLine_newline
    (hkey : Lapsed key (q.nextLine 1).line) :
    (block tokens indent outer keyAllowed key q ('\n' :: tail)).EndsLine tail (q.nextLine 1) where
  column := rfl
  skip := skipGap_newline
  key := hkey
  start := by simp

theorem reaches_plain
    {parent : Nat}
    (h : PlainText cs) (hparent : parent < position.column) (htail : StartsLine parent tail) :
    ReachesLine
      (block tokens parent outer keyAllowed none position (cs ++ '\n' :: tail))
      (tokens ++ [.scalar (String.ofList cs) .plain]) parent outer tail := by
  obtain ⟨m, more, q, rfl, hcolumn, hline, hread⟩ := readPlain_line (parent + 1) position h
    (by omega) (by omega) htail
  have hkey : Lapsed (keyAt tokens parent keyAllowed position) q.line :=
    lapsed_keyAt (by omega) hline
  refine ⟨q, hcolumn, ?_⟩
  obtain ⟨c, cs, rfl⟩ := List.exists_cons_of_ne_nil h.nonempty
  refine reaches_lastToken h.startsToken (by omega) ?_ htail
    (endsLine_indented htail hcolumn hkey) (by simp; omega)
  exact (readToken_plain h (by decide) (by decide)).trans (plainScalar_block hread)

/-- A scalar between quotes, which ends before the end of its line. -/
theorem reaches_quoted
    {parent : Nat} (read : Cursor → Option (Token × Cursor))
    (hc : StartsToken c) (hparent : parent < position.column) (htail : StartsLine parent tail)
    (htoken : (block tokens parent outer keyAllowed none position
        (c :: (cs ++ '\n' :: tail))).readToken c (cs ++ '\n' :: tail) =
      (block tokens parent outer keyAllowed none position
        (c :: (cs ++ '\n' :: tail))).keyToken read)
    (hread : read ⟨c :: (cs ++ '\n' :: tail), position⟩ = some (token, ⟨'\n' :: tail, q⟩))
    (hline : position.line ≤ q.line) :
    ReachesLine
      (block tokens parent outer keyAllowed none position (c :: (cs ++ '\n' :: tail)))
      (tokens ++ [token]) parent outer tail := by
  have hkey : Lapsed (keyAt tokens parent keyAllowed position) (q.nextLine 1).line :=
    lapsed_keyAt (by omega) (Nat.lt_succ_of_le hline)
  refine ⟨q.nextLine 1, rfl, ?_⟩
  exact reaches_lastToken hc (by omega) (htoken.trans (keyToken_block hread)) htail
    (endsLine_newline hkey) (by simp; omega)

theorem reaches_singleQuoted
    {parent width : Nat}
    (hwidth : 0 < width) (h : Print.allowsSingleQuoted cs = true) (hfeed : '\n' ∉ cs)
    (hparent : parent < position.column) (htail : StartsLine parent tail) :
    ReachesLine
      (block tokens parent outer keyAllowed none position
        (Print.singleQuoted width cs ++ '\n' :: tail))
      (tokens ++ [.scalar (String.ofList cs) .singleQuoted]) parent outer tail := by
  have hstop : ('\n' :: tail).head? ≠ some '\'' := by simp
  obtain ⟨q, hline, hread⟩ := readSingleQuoted_singleQuoted position hwidth h hfeed hstop
  have hquote : StartsToken '\'' := ⟨rfl, rfl, by decide, by decide⟩
  rw [Print.singleQuoted, List.cons_append, List.cons_append] at hread ⊢
  refine reaches_quoted
    (fun c => (readSingleQuoted c).map fun r => (.scalar r.1 .singleQuoted, r.2))
    hquote hparent htail ?_ ?_ hline
  · have hmark : ∀ rest, atDocumentMark ('\'' :: rest) = false := fun _ => rfl
    simp [readToken, hmark]
  · rw [hread]
    rfl

theorem reaches_doubleQuoted
    {parent : Nat}
    (cs : List Char) (hparent : parent < position.column) (htail : StartsLine parent tail) :
    ReachesLine
      (block tokens parent outer keyAllowed none position
        (Print.doubleQuoted cs ++ '\n' :: tail))
      (tokens ++ [.scalar (String.ofList cs) .doubleQuoted]) parent outer tail := by
  obtain ⟨q, hline, hread⟩ := readDoubleQuoted_doubleQuoted cs ('\n' :: tail) position
  have hquote : StartsToken '"' := ⟨rfl, rfl, by decide, by decide⟩
  rw [Print.doubleQuoted, List.cons_append, List.cons_append] at hread ⊢
  refine reaches_quoted
    (fun c => (readDoubleQuoted c).map fun r => (.scalar r.1 .doubleQuoted, r.2))
    hquote hparent htail ?_ ?_ hline
  · have hmark : ∀ rest, atDocumentMark ('"' :: rest) = false := fun _ => rfl
    simp [readToken, hmark]
  · rw [hread]
    rfl

theorem reaches_literal
    {parent : Nat}
    (h : Print.allowsLiteral cs = true) (hne : cs ≠ []) (hparent : parent ≤ position.column)
    (htail : StartsLine parent tail) :
    ReachesLine
      (block tokens parent outer keyAllowed none position
        (Print.literal (parent + 2) cs ++ tail))
      (tokens ++ [.scalar (String.ofList cs) .literal]) parent outer tail := by
  obtain ⟨m, more, q, rfl, hcolumn, hline, hread⟩ := readBlock_literal position h hne htail
  have hbar : StartsToken '|' := ⟨rfl, rfl, by decide, by decide⟩
  rw [Print.literal, List.cons_append] at hread ⊢
  refine ⟨q, hcolumn, reaches_lastToken hbar (by omega) ?_ htail
    (endsLine_indented htail hcolumn (lapsed_none _)) (by simp; omega)⟩
  exact readToken_bar.trans (blockScalar_block hread)

/-- The scanner between a pair of brackets, which is inside of a flow collection. -/
def opened (tokens : List Token) (parent : Nat) (outer : List Int) (keyAllowed : Bool)
    (position : Position) (tail : List Char) : Scanner :=
  { block (tokens ++ [.flowSequenceStart]) parent outer true none (position.advance 1)
      (']' :: '\n' :: tail) with
    outerKeys := [keyAt tokens parent keyAllowed position] }

section Brackets

variable {parent : Nat}

theorem reaches_opened
    (hparent : parent < position.column) :
    Reaches
      (block tokens parent outer keyAllowed none position ('[' :: ']' :: '\n' :: tail))
      (opened tokens parent outer keyAllowed position tail) := by
  have hbracket : StartsToken '[' := ⟨rfl, rfl, by decide, by decide⟩
  have hmark : ∀ rest, atDocumentMark ('[' :: rest) = false := fun _ => rfl
  have hread : ∀ s : Scanner, s.readToken '[' (']' :: '\n' :: tail) =
      s.openFlow .flowSequenceStart := by
    intro s
    simp [readToken, hmark]
  refine reaches_token hbracket (by omega) ?_ (Nat.le_refl _)
  rw [hread, openFlow, saveKey_block]
  simp [opened, block, allowKey, skip, moveTo, emit, Cursor.advance]

/-- The key that the brackets could be is still on its line. -/
theorem refresh_opened :
    (opened tokens parent outer keyAllowed position tail).refresh
        (keyAt tokens parent keyAllowed position) =
      some (keyAt tokens parent keyAllowed position) := by
  cases keyAllowed with
  | false => rfl
  | true => simp [refresh, keyAt, isStale, opened, block, Position.advance]

theorem settle_opened :
    (opened tokens parent outer keyAllowed position tail).settle =
      some (opened tokens parent outer keyAllowed position tail) := by
  have hnext : (opened tokens parent outer keyAllowed position tail).toNextToken =
      opened tokens parent outer keyAllowed position tail := by
    simp [toNextToken, opened, block, inFlow, skipGap, isBreak]
  have hrefresh : [keyAt tokens parent keyAllowed position].mapM
        (opened tokens parent outer keyAllowed position tail).refresh =
      some [keyAt tokens parent keyAllowed position] := by
    rw [List.mapM_cons, refresh_opened]
    rfl
  have hkeys : (opened tokens parent outer keyAllowed position tail).dropStaleKeys =
      some (opened tokens parent outer keyAllowed position tail) := by
    show (some none).bind (fun key => ([keyAt tokens parent keyAllowed position].mapM
      (opened tokens parent outer keyAllowed position tail).refresh).bind fun keys =>
        some { opened tokens parent outer keyAllowed position tail with
          key := key, outerKeys := keys }) = _
    rw [hrefresh]
    rfl
  rw [settle, hnext, hkeys]
  rfl

theorem readToken_opened :
    (opened tokens parent outer keyAllowed position tail).readToken ']' ('\n' :: tail) =
      some (block (tokens ++ [.flowSequenceStart, .flowSequenceEnd]) parent outer false
        (keyAt tokens parent keyAllowed position) (position.advance 2) ('\n' :: tail)) := by
  have hmark : ∀ rest, atDocumentMark (']' :: rest) = false := fun _ => rfl
  have hread : ∀ s : Scanner, s.readToken ']' ('\n' :: tail) =
      s.closeFlow .flowSequenceEnd := by
    intro s
    simp [readToken, hmark]
  rw [hread, closeFlow]
  simp [opened, block, dropKey, giveUp, allowKey, skip, moveTo, emit, Cursor.advance,
    Position.advance]

/-- A pair of brackets, which is over before any key in it could begin. -/
theorem reaches_brackets
    (hparent : parent < position.column) (htail : StartsLine parent tail) :
    ReachesLine
      (block tokens parent outer keyAllowed none position ('[' :: ']' :: '\n' :: tail))
      (tokens ++ [.flowSequenceStart, .flowSequenceEnd]) parent outer tail := by
  have hkey : Lapsed (keyAt tokens parent keyAllowed position)
      ((position.advance 2).nextLine 1).line :=
    lapsed_keyAt (by omega) (Nat.lt_succ_self _)
  refine ⟨(position.advance 2).nextLine 1, rfl, (reaches_opened hparent).trans ?_⟩
  refine .token settle_opened rfl readToken_opened
    (settle_of_endsLine htail (endsLine_newline hkey)) ?_
  show tail.length < tail.length + 1 + 1
  omega

end Brackets

end Scanner

end LibraryModels.Yaml
