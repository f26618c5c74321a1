import LibraryModels.Proofs.Text.Utf8
import LibraryModels.Proofs.Yaml.Style
import LibraryModels.Proofs.Yaml.Tokens
import LibraryModels.Yaml.Print.Document

/-!
# The tokens of written values

A value whose keys are short plain texts is read as its tokens, wherever it stands.  The induction
is on the value: every part is written at a place of its own, and whatever follows a part begins a
line at the column of the collection around it or to the left.
-/

namespace LibraryModels.Yaml

open Print (spaces styleOf textLine valueText itemLines entryLines entryText isShortKey keyText
  StartsToken StartsLine PlainText)

/-- A key that is written plain before a colon. -/
def isFieldName : Value → Bool
  | .string s => styleOf s = .plain && isShortKey (.string s)
  | _ => false

/-- A value that is read back from its text: all keys are names of fields. -/
inductive Regular : Value → Prop where
  | null : Regular .null
  | bool (b : Bool) : Regular (.bool b)
  | number {n : Number} : PlainText (numberText n).toList → Regular (.number n)
  | string (s : String) : Regular (.string s)
  | noItems : Regular (.sequence [])
  | sequence {item : Value} {items : List Value} :
      Regular item → (∀ v ∈ items, Regular v) → Regular (.sequence (item :: items))
  | mapping {entry : Value × Value} {entries : List (Value × Value)} :
      (∀ e ∈ entry :: entries, isFieldName e.1 = true) → (∀ e ∈ entry :: entries, Regular e.2) →
        Regular (.mapping (entry :: entries))

theorem Regular.sequence_of_forall
    {items : List Value}
    (h : ∀ v ∈ items, Regular v) :
    Regular (.sequence items) := by
  cases items with
  | nil => exact .noItems
  | cons item items =>
      exact .sequence (h item List.mem_cons_self) fun v hv => h v (List.mem_cons_of_mem item hv)

namespace Value

mutual

/-- The tokens of a value; a bare sequence has no tokens for its start and its end. -/
def tokens (bare : Bool) : Value → List Token
  | .string s => [.scalar s (styleOf s)]
  | .sequence items =>
    if items.isEmpty then [.flowSequenceStart, .flowSequenceEnd]
    else if bare then itemTokens items
    else .blockSequenceStart :: (itemTokens items ++ [.blockEnd])
  | .mapping entries => .blockMappingStart :: (entryTokens entries ++ [.blockEnd])
  | .tagged _ v => tokens bare v
  | .null => [.scalar "null" .plain]
  | .bool b => [.scalar (boolText b) .plain]
  | .number n => [.scalar (numberText n) .plain]

/-- The tokens of items. -/
def itemTokens : List Value → List Token
  | [] => []
  | item :: items => .blockEntry :: (tokens false item ++ itemTokens items)

/-- The tokens of entries. -/
def entryTokens : List (Value × Value) → List Token
  | [] => []
  | (key, v) :: entries =>
    .key :: (tokens false key ++ .value :: (tokens true v ++ entryTokens entries))

end

end Value

namespace Scanner

variable {tokens : List Token} {indent : Int} {outer : List Int} {keyAllowed : Bool}
  {position p q : Position} {rest tail : List Char} {c : Char}

/-! ## Texts -/

/-- A text at the end of a line, in any style. -/
theorem reaches_textLine
    {parent : Nat}
    (s : String) (hparent : parent < position.column) (htail : StartsLine parent tail) :
    ReachesLine
      (block tokens parent outer keyAllowed none position
        (textLine (parent + 2) s ++ tail))
      (tokens ++ [.scalar s (styleOf s)]) parent outer tail := by
  have hcases := Print.styleOf_cases s
  obtain ⟨cs, rfl⟩ : ∃ cs, s = String.ofList cs := ⟨s.toList, String.ofList_toList.symm⟩
  simp only [String.toList_ofList] at hcases
  rcases hcases with ⟨h, -, hplain⟩ | ⟨h, hsingle, hfeed⟩ | h | ⟨h, hliteral, hfeed⟩
  · have htext : textLine (parent + 2) (String.ofList cs) = cs ++ ['\n'] := by
      simp [textLine, Print.inlineText, h]
    rw [htext, h, List.append_assoc]
    exact reaches_plain hplain hparent htail
  · have htext : textLine (parent + 2) (String.ofList cs) =
        Print.singleQuoted (parent + 2) cs ++ ['\n'] := by
      simp [textLine, Print.inlineText, h]
    rw [htext, h, List.append_assoc]
    exact reaches_singleQuoted (Nat.succ_pos _) hsingle hfeed hparent htail
  · have htext : textLine (parent + 2) (String.ofList cs) = Print.doubleQuoted cs ++ ['\n'] := by
      simp [textLine, Print.inlineText, h]
    rw [htext, h, List.append_assoc]
    exact reaches_doubleQuoted cs hparent htail
  · have htext : textLine (parent + 2) (String.ofList cs) = Print.literal (parent + 2) cs := by
      simp [textLine, h]
    rw [htext, h]
    exact reaches_literal hliteral (List.ne_nil_of_mem hfeed) (Nat.le_of_lt hparent) htail

/-- The first character of a text at the end of a line begins a token. -/
theorem exists_textLine (n : Nat) (s : String) :
    ∃ c rest, textLine n s = c :: rest ∧ StartsToken c := by
  have hcases := Print.styleOf_cases s
  rcases hcases with ⟨h, -, hplain⟩ | ⟨h, -⟩ | h | ⟨h, -⟩
  · obtain ⟨c, cs, hcs⟩ := List.exists_cons_of_ne_nil hplain.nonempty
    rw [hcs] at hplain
    exact ⟨c, cs ++ ['\n'], by simp [textLine, Print.inlineText, h, hcs], hplain.startsToken⟩
  · exact ⟨'\'', Print.singleQuotedBody n false s.toList ++ ['\'', '\n'], by
      simp [textLine, Print.inlineText, h, Print.singleQuoted],
      rfl, rfl, by decide, by decide⟩
  · exact ⟨'"', s.toList.flatMap Print.doubleQuotedChar ++ ['"', '\n'], by
      simp [textLine, Print.inlineText, h, Print.doubleQuoted],
      rfl, rfl, by decide, by decide⟩
  · exact ⟨'|', Print.indentationHint s.toList ++ (Print.chompingHint s.toList ++
      '\n' :: (Print.literalBody n true s.toList ++ Print.closingBreak s.toList)), by
      simp [textLine, h, Print.literal], rfl, rfl, by decide, by decide⟩

/-! ## Places -/

/-- The text of a value is read as its tokens wherever the value stands. -/
def Scans (v : Value) : Prop :=
  ∀ (place : Print.Place) (tokens : List Token) (outer : List Int) (keyAllowed : Bool)
    (position : Position) (tail : List Char),
    place.indent < position.column →
    (place.opening = true → position.column = place.indent + 1 ∧ keyAllowed = true) →
    StartsLine place.indent tail →
      ReachesLine
        (block tokens place.indent outer keyAllowed none position (valueText place v ++ tail))
        (tokens ++ v.tokens (place.inMapping && ! place.opening)) place.indent outer tail

/-- Whatever a value is, a blank or a line end is before it. -/
theorem atSpace_valueText (place : Print.Place) (v : Value) (rest : List Char) :
    atSpace (valueText place v ++ rest) = true := by
  cases hopening : place.opening <;> unfold valueText <;> split <;> simp [hopening, atSpace, isSpace]

theorem reaches_space
    (hc : StartsToken c) :
    Reaches (block tokens indent outer keyAllowed none position (' ' :: c :: rest))
      (block tokens indent outer keyAllowed none (position.advance 1) (c :: rest)) :=
  reaches_spaces hc 1

/-- A value that is one text in front of a line end, after a space. -/
theorem scans_of_line
    {v : Value} {tokens : List Token} (text : Nat → List Char)
    (hstart : ∀ n, ∃ c rest, text n = c :: rest ∧ StartsToken c)
    (htext : ∀ place, valueText place v = ' ' :: text place.indent)
    (htokens : ∀ bare, v.tokens bare = tokens)
    (hline : ∀ (before : List Token) (outer : List Int) (keyAllowed : Bool) (parent : Nat)
      (position : Position) (tail : List Char),
      parent < position.column → StartsLine parent tail →
        ReachesLine (block before parent outer keyAllowed none position (text parent ++ tail))
          (before ++ tokens) parent outer tail) :
    Scans v := by
  intro place before outer keyAllowed position tail hcolumn _ htail
  have hright : place.indent < (position.advance 1).column := Nat.lt_succ_of_lt hcolumn
  have hspace : Reaches (block before place.indent outer keyAllowed none position
      (' ' :: (text place.indent ++ tail)))
      (block before place.indent outer keyAllowed none (position.advance 1)
        (text place.indent ++ tail)) := by
    obtain ⟨c, rest, hc, htoken⟩ := hstart place.indent
    rw [hc]
    exact reaches_space htoken
  rw [htext, htokens]
  exact hspace.line (hline before outer keyAllowed place.indent _ tail hright htail)

theorem scans_string (s : String) : Scans (.string s) := by
  refine scans_of_line (fun n => textLine (n + 2) s) (fun n => exists_textLine (n + 2) s)
    (fun place => by rw [valueText]) (fun bare => by rw [Value.tokens]) ?_
  intro before outer keyAllowed parent position tail hright htail
  exact reaches_textLine s hright htail

theorem scans_plain
    {v : Value} {text : String}
    (h : PlainText text.toList)
    (htext : ∀ place, valueText place v = ' ' :: (text.toList ++ ['\n']))
    (htokens : ∀ bare, v.tokens bare = [.scalar text .plain]) :
    Scans v := by
  obtain ⟨cs, rfl⟩ : ∃ cs, text = String.ofList cs := ⟨text.toList, String.ofList_toList.symm⟩
  rw [String.toList_ofList] at h htext
  refine scans_of_line (fun _ => cs ++ ['\n']) ?_ htext htokens ?_
  · obtain ⟨c, rest, rfl⟩ := List.exists_cons_of_ne_nil h.nonempty
    exact fun _ => ⟨c, rest ++ ['\n'], rfl, h.startsToken⟩
  · intro before outer keyAllowed parent position tail hright htail
    rw [List.append_assoc]
    exact reaches_plain h hright htail

theorem scans_noItems : Scans (.sequence []) := by
  refine scans_of_line (fun _ => ['[', ']', '\n']) (fun _ => ?_)
    (fun place => by simp [valueText, Print.simpleText?]) (fun bare => by rw [Value.tokens]; rfl) ?_
  · exact ⟨'[', [']', '\n'], rfl, rfl, rfl, by decide, by decide⟩
  · intro before outer keyAllowed parent position tail hright htail
    exact reaches_brackets hright htail

/-! ## Items -/

/-- A text that begins with one of some items begins a line in their column. -/
theorem startsLine_itemLines
    {column : Nat}
    (items : List Value) (htail : StartsLine column tail) :
    StartsLine column (itemLines column items ++ tail) := by
  cases items with
  | nil => exact htail
  | cons item items =>
      rw [itemLines, List.append_assoc]
      exact .token (Nat.le_refl column) ⟨rfl, rfl, by decide, by decide⟩

/-- A dash and the item after it. -/
theorem reachesLine_item
    {v : Value} {column : Nat}
    (hv : Scans v) (hindent : indent ≤ column) (hcolumn : position.column = column)
    (htail : StartsLine column tail) :
    ReachesLine
      (block tokens indent outer true none position
        ('-' :: (valueText ⟨column, false, true⟩ v ++ tail)))
      (tokens ++ opening indent column .blockSequenceStart ++ .blockEntry :: v.tokens false) column
      (around indent column outer) tail := by
  subst hcolumn
  have hdash : Reaches (block tokens indent outer true none position
      ('-' :: (valueText ⟨position.column, false, true⟩ v ++ tail))) _ :=
    reaches_item (atSpace_valueText ⟨position.column, false, true⟩ v tail) hindent
  have hright : position.column < (position.advance 1).column := Nat.lt_succ_self _
  have hplace := hv ⟨position.column, false, true⟩
    (tokens ++ opening indent position.column .blockSequenceStart ++ [.blockEntry])
    (around indent position.column outer) true (position.advance 1) tail hright
    (fun _ => ⟨rfl, rfl⟩) htail
  rw [List.append_assoc _ [_]] at hplace
  exact hdash.line hplace

/-- The items after the first one, each on a line of its own. -/
theorem reachesLine_itemLines
    {column : Nat}
    (items : List Value) (hitems : ∀ v ∈ items, Scans v) (hcolumn : position.column = 0)
    (htail : StartsLine column tail) :
    ReachesLine (block tokens column outer true none position (itemLines column items ++ tail))
      (tokens ++ Value.itemTokens items) column outer tail := by
  induction items generalizing tokens position with
  | nil =>
      rw [Value.itemTokens, List.append_nil]
      exact ⟨position, hcolumn, .refl _⟩
  | cons item items ih =>
      have hdash : StartsToken '-' := ⟨rfl, rfl, by decide, by decide⟩
      have hitem := hitems item List.mem_cons_self
      have hright : (position.advance column).column = column := by
        simp [Position.advance, hcolumn]
      have htext : itemLines column (item :: items) ++ tail = spaces column ++
          '-' :: (valueText ⟨column, false, true⟩ item ++ (itemLines column items ++ tail)) := by
        simp [itemLines]
      have hfirst : ReachesLine (block tokens column outer true none (position.advance column)
          ('-' :: (valueText ⟨column, false, true⟩ item ++ (itemLines column items ++ tail)))) _
          column _ (itemLines column items ++ tail) :=
        reachesLine_item hitem (Int.le_refl column) hright (startsLine_itemLines items htail)
      rw [opening_self, around_self, List.append_nil] at hfirst
      rw [htext]
      refine (reaches_spaces hdash column).line (hfirst.trans fun p hp => ?_)
      have hrest : ReachesLine (block (tokens ++ .blockEntry :: item.tokens false) column outer true
          none p (itemLines column items ++ tail)) _ column outer tail :=
        ih (fun v hv => hitems v (List.mem_cons_of_mem item hv)) hp
      rw [Value.itemTokens]
      simpa using hrest

/-- A collection that was opened to the right ends before the next line. -/
theorem ReachesLine.close
    {s : Scanner} {limit : Nat} {parent : Int}
    (hs : ReachesLine s tokens indent (parent :: outer) tail) (htail : StartsLine limit tail)
    (hlimit : (limit : Int) < indent) :
    ReachesLine s (tokens ++ [.blockEnd]) parent outer tail :=
  hs.trans fun p hp => ⟨p, hp, .of_settle_eq (settle_blockEnd htail hlimit hp) (Nat.le_refl _)⟩

/-- A collection begins after a space or on a line of its own. -/
theorem reachesLine_collection
    {place : Print.Place} {column : Nat} {more : List Token} {indent' : Int} {outer' : List Int}
    (hc : StartsToken c)
    (hopening : place.opening = true → position.column = place.indent + 1 ∧ keyAllowed = true)
    (hcolumn : place.opening = true → column = place.indent + 2)
    (hline : ∀ q, q.column = column →
      ReachesLine (block tokens indent outer true none q (c :: rest)) more indent' outer' tail) :
    ReachesLine
      (block tokens indent outer keyAllowed none position
        ((if place.opening then [' '] else '\n' :: spaces column) ++ c :: rest))
      more indent' outer' tail := by
  cases hplace : place.opening with
  | true =>
      obtain ⟨hposition, rfl⟩ := hopening hplace
      refine (reaches_space hc).line (hline (position.advance 1) ?_)
      rw [hcolumn hplace, Position.advance, hposition]
  | false => exact (reaches_line hc column).line (hline _ (Nat.zero_add column))

theorem scans_sequence
    {item : Value} {items : List Value}
    (hitem : Scans item) (hitems : ∀ v ∈ items, Scans v) :
    Scans (.sequence (item :: items)) := by
  intro place tokens outer keyAllowed position tail hcolumn hopening htail
  let bare := place.inMapping && ! place.opening
  let column := if bare then place.indent else place.indent + 2
  have hindent : place.indent ≤ column := by
    cases hbare : bare <;> simp [column, hbare]
  have hdash : StartsToken '-' := ⟨rfl, rfl, by decide, by decide⟩
  have hopen : place.opening = true → column = place.indent + 2 := by
    intro h
    simp [column, bare, h]
  have htext : valueText place (.sequence (item :: items)) ++ tail =
      (if place.opening then [' '] else '\n' :: spaces column) ++
        '-' :: (valueText ⟨column, false, true⟩ item ++ (itemLines column items ++ tail)) := by
    simp [valueText, column, bare]
  rw [htext]
  refine reachesLine_collection hdash hopening hopen fun q hq => ?_
  have hafter : StartsLine column (itemLines column items ++ tail) :=
    startsLine_itemLines items (htail.mono hindent)
  have hitems : ReachesLine (block tokens place.indent outer true none q
      ('-' :: (valueText ⟨column, false, true⟩ item ++ (itemLines column items ++ tail)))) _
      column (around place.indent column outer) tail :=
    (reachesLine_item hitem (by omega) hq hafter).trans fun p hp =>
      reachesLine_itemLines items hitems hp (htail.mono hindent)
  show ReachesLine _ (tokens ++ (Value.sequence (item :: items)).tokens bare) place.indent outer tail
  cases hbare : bare with
  | true =>
      have hsame : column = place.indent := by simp [column, hbare]
      rw [hsame, opening_self, around_self] at hitems
      rw [hsame]
      simpa [Value.tokens, Value.itemTokens] using hitems
  | false =>
      have hcolumn : column = place.indent + 2 := by simp [column, hbare]
      have hdeeper : (place.indent : Int) < column := by omega
      rw [opening, around, if_pos hdeeper, if_pos hdeeper] at hitems
      have hclosed := hitems.close htail hdeeper
      simpa [Value.tokens, Value.itemTokens] using hclosed

/-! ## Entries -/

/-- A key that is the name of a field is a short plain text. -/
theorem exists_of_isFieldName
    {key : Value}
    (h : isFieldName key = true) :
    ∃ s, key = .string s ∧ styleOf s = .plain ∧ isShortKey key = true ∧ PlainText s.toList ∧
      s.toList.length ≤ 1024 := by
  cases key with
  | string s =>
      simp only [isFieldName, Bool.and_eq_true, decide_eq_true_eq] at h
      obtain ⟨hstyle, hshort⟩ := h
      have hplain : PlainText s.toList := by
        rcases Print.styleOf_cases s with ⟨-, -, hplain⟩ | ⟨hother, -⟩ | hother | ⟨hother, -⟩
        · exact hplain
        all_goals
          rw [hstyle] at hother
          cases hother
      have hbytes : (Text.bytes s).length ≤ 128 := by
        have hbreak : s.toList.any isBreak = false := by
          simpa using hplain.unbroken
        simpa [isShortKey, Print.keyLength?, hbreak, Print.byteLength] using hshort
      have hchars := Text.length_toList_le s
      exact ⟨s, rfl, hstyle, hshort, hplain, by omega⟩
  | _ => cases h

/-- An entry of a mapping: a key and its value. -/
theorem reachesLine_entry
    {key v : Value} {longKey : List Char} {column : Nat}
    (hkey : isFieldName key = true) (hv : Scans v) (hindent : indent ≤ column)
    (hcolumn : position.column = column) (htail : StartsLine column tail) :
    ReachesLine
      (block tokens indent outer true none position
        (entryText column key longKey (valueText ⟨column, true, ! isShortKey key⟩ v) ++ tail))
      (tokens ++ opening indent column .blockMappingStart ++
        .key :: (key.tokens false ++ .value :: v.tokens true))
      column (around indent column outer) tail := by
  subst hcolumn
  obtain ⟨s, rfl, hstyle, hshort, hplain, hlength⟩ := exists_of_isFieldName hkey
  have htext : entryText position.column (.string s) longKey
      (valueText ⟨position.column, true, ! isShortKey (.string s)⟩ v) ++ tail =
        s.toList ++ ':' :: (valueText ⟨position.column, true, false⟩ v ++ tail) := by
    simp [entryText, hshort, keyText, Print.inlineText, hstyle]
  have hcolon : Reaches (block tokens indent outer true none position
      (s.toList ++ ':' :: (valueText ⟨position.column, true, false⟩ v ++ tail))) _ :=
    reaches_key hplain hlength (atSpace_valueText ⟨position.column, true, false⟩ v tail) hindent
  have hright : position.column < (position.advance (s.toList.length + 1)).column :=
    Nat.lt_add_of_pos_right (Nat.succ_pos _)
  have hplace := hv ⟨position.column, true, false⟩
    (tokens ++ opening indent position.column .blockMappingStart ++
      [.key, .scalar (String.ofList s.toList) .plain, .value])
    (around indent position.column outer) false (position.advance (s.toList.length + 1)) tail
    hright (fun h => by cases h) htail
  rw [htext]
  have hentry := hcolon.line hplace
  simpa [Value.tokens, hstyle] using hentry

/-- An entry begins with the first character of its key. -/
theorem exists_entryText
    {key : Value}
    (column : Nat) (longKey value : List Char) (hkey : isFieldName key = true) :
    ∃ c rest, entryText column key longKey value = c :: rest ∧ StartsToken c := by
  obtain ⟨s, rfl, hstyle, hshort, hplain, -⟩ := exists_of_isFieldName hkey
  obtain ⟨c, cs, hcs⟩ := List.exists_cons_of_ne_nil hplain.nonempty
  rw [hcs] at hplain
  refine ⟨c, cs ++ ':' :: value, ?_, hplain.startsToken⟩
  rw [entryText, if_pos hshort, keyText, Print.inlineText, hstyle]
  simp [hcs]

/-- A text that begins with one of some entries begins a line in their column. -/
theorem startsLine_entryLines
    {column : Nat}
    (entries : List (Value × Value)) (hkeys : ∀ e ∈ entries, isFieldName e.1 = true)
    (htail : StartsLine column tail) :
    StartsLine column (entryLines column entries ++ tail) := by
  cases entries with
  | nil => exact htail
  | cons entry entries =>
      obtain ⟨key, v⟩ := entry
      obtain ⟨c, rest, htext, hc⟩ := exists_entryText column (valueText ⟨column, true, true⟩ key)
        (valueText ⟨column, true, ! isShortKey key⟩ v) (hkeys _ List.mem_cons_self)
      rw [entryLines, htext, List.append_assoc]
      exact .token (Nat.le_refl column) hc

/-- The entries after the first one, each beginning on a line of its own. -/
theorem reachesLine_entryLines
    {column : Nat}
    (entries : List (Value × Value)) (hkeys : ∀ e ∈ entries, isFieldName e.1 = true)
    (hvalues : ∀ e ∈ entries, Scans e.2) (hcolumn : position.column = 0)
    (htail : StartsLine column tail) :
    ReachesLine (block tokens column outer true none position (entryLines column entries ++ tail))
      (tokens ++ Value.entryTokens entries) column outer tail := by
  induction entries generalizing tokens position with
  | nil =>
      rw [Value.entryTokens, List.append_nil]
      exact ⟨position, hcolumn, .refl _⟩
  | cons entry entries ih =>
      obtain ⟨key, v⟩ := entry
      have hkey : isFieldName key = true := hkeys _ List.mem_cons_self
      have hlater : ∀ e ∈ entries, isFieldName e.1 = true := fun e he =>
        hkeys e (List.mem_cons_of_mem _ he)
      have hright : (position.advance column).column = column := by
        simp [Position.advance, hcolumn]
      let text := entryText column key (valueText ⟨column, true, true⟩ key)
        (valueText ⟨column, true, ! isShortKey key⟩ v) ++ (entryLines column entries ++ tail)
      have htext : entryLines column ((key, v) :: entries) ++ tail = spaces column ++ text := by
        simp [entryLines, text]
      have hlead : Reaches (block tokens column outer true none position (spaces column ++ text))
          (block tokens column outer true none (position.advance column) text) := by
        obtain ⟨c, rest, hstart, hc⟩ := exists_entryText column
          (valueText ⟨column, true, true⟩ key) (valueText ⟨column, true, ! isShortKey key⟩ v) hkey
        simp only [text, hstart]
        exact reaches_spaces hc column
      have hfirst : ReachesLine
          (block tokens column outer true none (position.advance column) text) _ column _
          (entryLines column entries ++ tail) :=
        reachesLine_entry hkey (hvalues _ List.mem_cons_self) (Int.le_refl column) hright
          (startsLine_entryLines entries hlater htail)
      rw [opening_self, around_self, List.append_nil] at hfirst
      rw [htext]
      refine hlead.line (hfirst.trans fun p hp => ?_)
      have hrest : ReachesLine
          (block (tokens ++ .key :: (key.tokens false ++ .value :: v.tokens true)) column outer true
            none p (entryLines column entries ++ tail)) _ column outer tail :=
        ih hlater (fun e he => hvalues e (List.mem_cons_of_mem _ he)) hp
      rw [Value.entryTokens]
      simpa using hrest

/-- All entries of a mapping, the first of which opens it. -/
theorem reachesLine_entries
    {key v : Value} {longKey : List Char} {entries : List (Value × Value)} {column : Nat}
    (hkeys : ∀ e ∈ (key, v) :: entries, isFieldName e.1 = true)
    (hvalues : ∀ e ∈ (key, v) :: entries, Scans e.2) (hindent : indent < column)
    (hcolumn : position.column = column) (htail : StartsLine column tail) :
    ReachesLine
      (block tokens indent outer true none position
        (entryText column key longKey (valueText ⟨column, true, ! isShortKey key⟩ v) ++
          (entryLines column entries ++ tail)))
      (tokens ++ .blockMappingStart :: Value.entryTokens ((key, v) :: entries))
      column (indent :: outer) tail := by
  have hlater : ∀ e ∈ entries, isFieldName e.1 = true := fun e he =>
    hkeys e (List.mem_cons_of_mem _ he)
  have hfirst : ReachesLine
      (block tokens indent outer true none position
        (entryText column key longKey (valueText ⟨column, true, ! isShortKey key⟩ v) ++
          (entryLines column entries ++ tail))) _ column _ (entryLines column entries ++ tail) :=
    reachesLine_entry (hkeys _ List.mem_cons_self) (hvalues _ List.mem_cons_self)
      (Int.le_of_lt hindent) hcolumn (startsLine_entryLines entries hlater htail)
  rw [opening, around, if_pos hindent, if_pos hindent] at hfirst
  refine hfirst.trans fun p hp => ?_
  have hrest : ReachesLine
      (block (tokens ++ [.blockMappingStart] ++
          .key :: (key.tokens false ++ .value :: v.tokens true)) column (indent :: outer) true
        none p (entryLines column entries ++ tail)) _ column (indent :: outer) tail :=
    reachesLine_entryLines entries hlater (fun e he => hvalues e (List.mem_cons_of_mem _ he)) hp
      htail
  rw [Value.entryTokens]
  simpa using hrest

theorem scans_mapping
    {entry : Value × Value} {entries : List (Value × Value)}
    (hkeys : ∀ e ∈ entry :: entries, isFieldName e.1 = true)
    (hvalues : ∀ e ∈ entry :: entries, Scans e.2) :
    Scans (.mapping (entry :: entries)) := by
  intro place tokens outer keyAllowed position tail hcolumn hopening htail
  obtain ⟨key, v⟩ := entry
  have hdeeper : (place.indent : Int) < (place.indent + 2 : Nat) := by omega
  obtain ⟨c, rest, hstart, hc⟩ := exists_entryText (place.indent + 2)
    (valueText ⟨place.indent + 2, true, true⟩ key)
    (valueText ⟨place.indent + 2, true, ! isShortKey key⟩ v) (hkeys _ List.mem_cons_self)
  have htext : valueText place (.mapping ((key, v) :: entries)) ++ tail =
      (if place.opening then [' '] else '\n' :: spaces (place.indent + 2)) ++
        c :: (rest ++ (entryLines (place.indent + 2) entries ++ tail)) := by
    simp [valueText, hstart]
  rw [htext]
  refine reachesLine_collection hc hopening (fun _ => rfl) fun q hq => ?_
  have hentries : ReachesLine (block tokens place.indent outer true none q
      (entryText (place.indent + 2) key (valueText ⟨place.indent + 2, true, true⟩ key)
        (valueText ⟨place.indent + 2, true, ! isShortKey key⟩ v) ++
          (entryLines (place.indent + 2) entries ++ tail))) _ (place.indent + 2 : Nat)
      (place.indent :: outer) tail :=
    reachesLine_entries hkeys hvalues hdeeper hq (htail.mono (Nat.le_add_right _ 2))
  have hclosed := hentries.close htail hdeeper
  rw [hstart] at hclosed
  simpa [Value.tokens] using hclosed

/-- The text of every regular value is read as its tokens, wherever the value stands. -/
theorem scans_of_regular
    {v : Value}
    (h : Regular v) :
    Scans v := by
  induction h with
  | null =>
      have hplain : PlainText "null".toList := .of_allowsPlain (by decide) (by decide)
      exact scans_plain hplain (fun place => by simp [valueText, Print.simpleText?])
        fun bare => by rw [Value.tokens]
  | bool b =>
      have hplain : PlainText (boolText b).toList := by
        cases b <;> exact .of_allowsPlain (by decide) (by decide)
      exact scans_plain hplain (fun place => by simp [valueText, Print.simpleText?])
        fun bare => by rw [Value.tokens]
  | number hplain =>
      exact scans_plain hplain (fun place => by simp [valueText, Print.simpleText?])
        fun bare => by rw [Value.tokens]
  | string s => exact scans_string s
  | noItems => exact scans_noItems
  | sequence _ _ ihItem ihItems => exact scans_sequence ihItem ihItems
  | mapping hkeys _ ihValues => exact scans_mapping hkeys ihValues

end Scanner

end LibraryModels.Yaml
