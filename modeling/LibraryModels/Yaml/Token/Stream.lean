import LibraryModels.Yaml.Token.Block
import LibraryModels.Yaml.Token.Tag

/-!
# From text to tokens

A text is read token by token. Whether a scalar, alias or flow collection is a key shows only at
the colon after it, so every place where a key may have begun is remembered until then; a key has
to stay on one line and within 1024 characters. Deeper columns open block collections and
shallower ones close them.
-/

namespace LibraryModels.Yaml

/-- A place where a key may have begun. -/
structure PossibleKey where
  /-- The number of tokens before it. -/
  tokens : Nat
  position : Position
  /-- A key has to begin here: the block mapping around it goes on in this column. -/
  required : Bool
deriving DecidableEq, Repr

/-- A text that has been read up to a place. -/
structure Scanner where
  cursor : Cursor
  /-- The tokens so far, the last first. -/
  tokens : List Token
  count : Nat
  /-- The column of the innermost block collection, `-1` outside of all. -/
  indent : Int
  /-- The columns of the block collections around it. -/
  outer : List Int
  /-- A key may begin at the next token. -/
  keyAllowed : Bool
  /-- The possible key of the innermost flow collection. -/
  key : Option PossibleKey
  /-- The possible keys of the flow collections around it and of the block context. -/
  outerKeys : List (Option PossibleKey)

namespace Scanner

/-- The start of a text. -/
def start (cs : List Char) : Scanner where
  cursor := ⟨cs, ⟨0, 0, 0⟩⟩
  tokens := []
  count := 0
  indent := -1
  outer := []
  keyAllowed := true
  key := none
  outerKeys := []

/-- Inside a flow collection. -/
def inFlow (s : Scanner) : Bool :=
  ! s.outerKeys.isEmpty

/-- The column of the next character. -/
def column (s : Scanner) : Int :=
  s.cursor.column

/-- Appends a token. -/
def emit (s : Scanner) (t : Token) : Scanner :=
  { s with tokens := t :: s.tokens, count := s.count + 1 }

/-- Inserts a token after the first `n`. -/
def insertAt (s : Scanner) (n : Nat) (t : Token) : Scanner :=
  let later := s.count - n
  { s with
    tokens := s.tokens.take later ++ t :: s.tokens.drop later
    count := s.count + 1 }

/-- Moves the cursor. -/
def moveTo (s : Scanner) (c : Cursor) : Scanner :=
  { s with cursor := c }

/-- Passes over `n` characters. -/
def skip (s : Scanner) (n : Nat) : Scanner :=
  s.moveTo (s.cursor.advance n)

/-- Passes over blanks, comments and line ends; in block context a key may begin on a new line. -/
def skipGap (inFlow : Bool) (keyAllowed comment : Bool) (position : Position) :
    List Char → Bool × Cursor
  | [] => (keyAllowed, ⟨[], position⟩)
  | '\r' :: '\n' :: rest =>
    skipGap inFlow (keyAllowed || ! inFlow) false (position.nextLine 2) rest
  | c :: rest =>
    if isBreak c then
      skipGap inFlow (keyAllowed || ! inFlow) false (position.nextLine 1) rest
    else if comment || c = ' ' || (inFlow || ! keyAllowed) && c = '\t' then
      skipGap inFlow keyAllowed comment (position.advance 1) rest
    else if c = '#' then skipGap inFlow keyAllowed true (position.advance 1) rest
    else (keyAllowed, ⟨c :: rest, position⟩)

/-- Passes over a byte order mark at the very start, and over everything up to the next token. -/
def toNextToken (s : Scanner) : Scanner :=
  let c := s.cursor
  let c := if c.position.index = 0 ∧ c.rest.head? = some '\uFEFF' then c.advance 1 else c
  let (keyAllowed, c) := skipGap s.inFlow s.keyAllowed false c.position c.rest
  { s with cursor := c, keyAllowed }

/-- Whether a possible key can no longer be one. -/
def isStale (s : Scanner) (k : PossibleKey) : Bool :=
  k.position.line < s.cursor.position.line || k.position.index + 1024 < s.cursor.position.index

/-- A possible key that is given up, unless it is required. -/
def giveUp (k : Option PossibleKey) : Option (Option PossibleKey) :=
  match k with
  | some k => if k.required then none else some none
  | none => some none

/-- Gives a possible key up if it is stale. -/
def refresh (s : Scanner) (k : Option PossibleKey) : Option (Option PossibleKey) :=
  if k.any s.isStale then giveUp k else some k

/-- Gives up all stale keys. -/
def dropStaleKeys (s : Scanner) : Option Scanner := do
  let key ← s.refresh s.key
  let outerKeys ← s.outerKeys.mapM s.refresh
  return { s with key, outerKeys }

/-- Gives the innermost possible key up. -/
def dropKey (s : Scanner) : Option Scanner := do
  return { s with key := ← giveUp s.key }

/-- Remembers that a key may begin here. -/
def saveKey (s : Scanner) : Option Scanner :=
  if s.keyAllowed then do
    let s ← s.dropKey
    let required := ! s.inFlow && s.indent = s.column
    return { s with key := some ⟨s.count, s.cursor.position, required⟩ }
  else some s

/--
Closes the block collections right of a column, given the columns of those around the innermost.
-/
def closeBlocks (s : Scanner) (column : Int) : List Int → Scanner
  | [] => s
  | parent :: rest =>
    if column < s.indent then
      closeBlocks { s.emit .blockEnd with indent := parent, outer := rest } column rest
    else s

/-- Closes the block collections right of a column; flow collections have no columns. -/
def unroll (s : Scanner) (column : Int) : Scanner :=
  if s.inFlow then s else s.closeBlocks column s.outer

/--
Opens a block collection at a column that is right of the innermost one, with its token at
`place`.
-/
def roll (s : Scanner) (column : Int) (place : Nat) (t : Token) : Scanner :=
  if s.inFlow then s
  else if s.indent < column then
    { s.insertAt place t with indent := column, outer := s.indent :: s.outer }
  else s

/-- Opens a block collection at the cursor. -/
def rollHere (s : Scanner) (t : Token) : Scanner :=
  s.roll s.column s.count t

/-- Sets whether a key may begin at the next token. -/
def allowKey (s : Scanner) (allowed : Bool) : Scanner :=
  { s with keyAllowed := allowed }

/-- A directive or document mark: all block collections are over. -/
def closeAll (s : Scanner) : Option Scanner := do
  let s ← (s.unroll (-1)).dropKey
  return s.allowKey false

/-- The start of a flow collection. -/
def openFlow (s : Scanner) (t : Token) : Option Scanner := do
  let s ← s.saveKey
  return (({ s with key := none, outerKeys := s.key :: s.outerKeys }.allowKey true).skip 1).emit t

/-- The end of a flow collection. -/
def closeFlow (s : Scanner) (t : Token) : Option Scanner := do
  let s ← s.dropKey
  let s :=
    match s.outerKeys with
    | key :: outerKeys => { s with key, outerKeys }
    | [] => s
  return ((s.allowKey false).skip 1).emit t

/-- A comma in a flow collection. -/
def flowEntry (s : Scanner) : Option Scanner := do
  let s ← s.dropKey
  return ((s.allowKey true).skip 1).emit .flowEntry

/-- A dash before an item. -/
def blockEntry (s : Scanner) : Option Scanner := do
  guard (s.inFlow || s.keyAllowed)
  let s ← (s.rollHere .blockSequenceStart).dropKey
  return ((s.allowKey true).skip 1).emit .blockEntry

/-- A question mark before a key. -/
def explicitKey (s : Scanner) : Option Scanner := do
  guard (s.inFlow || s.keyAllowed)
  let s ← (s.rollHere .blockMappingStart).dropKey
  return ((s.allowKey ! s.inFlow).skip 1).emit .key

/-- A colon before a value: what began at the possible key was a key. -/
def valueMark (s : Scanner) : Option Scanner := do
  match s.key with
  | some k =>
    let s := (s.insertAt k.tokens .key).roll k.position.column k.tokens .blockMappingStart
    return (({ s with key := none }.allowKey false).skip 1).emit .value
  | none =>
    guard (s.inFlow || s.keyAllowed)
    let s := s.rollHere .blockMappingStart
    return ((s.allowKey ! s.inFlow).skip 1).emit .value

/-- A token that may be a key, or stand before one. -/
def keyToken (s : Scanner) (read : Cursor → Option (Token × Cursor)) : Option Scanner := do
  let s ← s.saveKey
  let (token, c) ← read s.cursor
  return ((s.allowKey false).moveTo c).emit token

/-- A block scalar, which is never a key. -/
def blockScalar (s : Scanner) (literal : Bool) : Option Scanner := do
  let s ← s.dropKey
  let (text, c) ← readBlock literal s.indent s.cursor
  return ((s.allowKey true).moveTo c).emit (.scalar text (if literal then .literal else .folded))

/-- A plain scalar; a key may begin after one that ended on a later line. -/
def plainScalar (s : Scanner) : Option Scanner := do
  let s ← s.saveKey
  let scalar ← readPlain s.inFlow (s.indent + 1) s.cursor
  return ((s.allowKey scalar.folded).moveTo scalar.after).emit (.scalar scalar.text .plain)

/-- The characters that no plain scalar begins with, except for some that depend on what follows. -/
def isIndicator (c : Char) : Bool :=
  c ∈ ['-', '?', ':', ',', '[', ']', '\x7b', '\x7d', '#', '&', '*', '!', '|', '>', '\'', '"', '%',
    '@', '\x60']

/-- Whether a plain scalar begins with `c` before `rest`. -/
def startsPlain (inFlow : Bool) (c : Char) (rest : List Char) : Bool :=
  ! (isSpace c || isIndicator c) ||
    c = '-' && ! atBlank rest ||
    ! inFlow && (c = '?' || c = ':') && ! atSpace rest

/-- Reads the token that begins with `c` before `rest`. -/
def readToken (s : Scanner) (c : Char) (rest : List Char) : Option Scanner :=
  if s.column = 0 ∧ c = '%' then do
    let s ← s.closeAll
    let (token, cursor) ← readDirective s.cursor
    return (s.moveTo cursor).emit token
  else if s.column = 0 ∧ atDocumentMark (c :: rest) then do
    let s ← s.closeAll
    return (s.skip 3).emit (if c = '-' then .documentStart else .documentEnd)
  else if c = '[' then s.openFlow .flowSequenceStart
  else if c = '\x7b' then s.openFlow .flowMappingStart
  else if c = ']' then s.closeFlow .flowSequenceEnd
  else if c = '\x7d' then s.closeFlow .flowMappingEnd
  else if c = ',' then s.flowEntry
  else if c = '-' ∧ atSpace rest then s.blockEntry
  else if c = '?' ∧ (s.inFlow ∨ atSpace rest) then s.explicitKey
  else if c = ':' ∧ (s.inFlow ∨ atSpace rest) then s.valueMark
  else if c = '*' then
    s.keyToken fun c => (readAnchorName (c.advance 1)).map fun (name, c) => (.alias name, c)
  else if c = '&' then
    s.keyToken fun c => (readAnchorName (c.advance 1)).map fun (name, c) => (.anchor name, c)
  else if c = '!' then s.keyToken (readTag s.inFlow)
  else if c = '|' ∧ ¬ s.inFlow then s.blockScalar true
  else if c = '>' ∧ ¬ s.inFlow then s.blockScalar false
  else if c = '\'' then
    s.keyToken fun c => (readSingleQuoted c).map fun (text, c) => (.scalar text .singleQuoted, c)
  else if c = '"' then
    s.keyToken fun c => (readDoubleQuoted c).map fun (text, c) => (.scalar text .doubleQuoted, c)
  else if startsPlain s.inFlow c rest then s.plainScalar
  else none

/-- The end of the text closes everything. -/
def finish (s : Scanner) : Option (List Token) := do
  let s ← (s.unroll (-1)).dropKey
  return s.tokens.reverse

/-- Reads all tokens; every token takes at least one character, so `fuel` is never used up. -/
def run (fuel : Nat) (s : Scanner) : Option (List Token) :=
  match fuel with
  | 0 => none
  | fuel + 1 => do
    let s ← s.toNextToken.dropStaleKeys
    let s := s.unroll s.column
    match s.cursor.rest with
    | [] => s.finish
    | c :: rest => run fuel (← s.readToken c rest)

end Scanner

/-- The tokens of a text, or nothing if it is no YAML. -/
def tokensOf (s : String) : Option (List Token) := do
  let cs := s.toList
  guard (cs.all isAllowed)
  (Scanner.start cs).run (cs.length + 1)

end LibraryModels.Yaml
