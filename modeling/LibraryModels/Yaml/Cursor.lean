/-!
# Places in a YAML text

Character classes of YAML, and a cursor: the rest of the text with its line and column. Columns
count characters. A line ends with a line feed, a carriage return or both, or with one of three
other characters, of which two are kept as they are in the text of a scalar.
-/

namespace LibraryModels.Yaml

/-- A space or a tab. -/
def isBlank (c : Char) : Bool :=
  c = ' ' ∨ c = '\t'

/-- A character that ends a line. -/
def isBreak (c : Char) : Bool :=
  c = '\n' ∨ c = '\r' ∨ c = '\x85' ∨ c = '\u2028' ∨ c = '\u2029'

/-- A blank or a line end. -/
def isSpace (c : Char) : Bool :=
  isBlank c || isBreak c

/-- What a line end is in the text of a scalar: a line feed, or itself. -/
def breakText (c : Char) : Char :=
  if c = '\u2028' ∨ c = '\u2029' then c else '\n'

/-- The characters of names of anchors and tags. -/
def isWordChar (c : Char) : Bool :=
  c.isAlphanum || c = '_' || c = '-'

/-- The characters that a text may hold at all. -/
def isAllowed (c : Char) : Bool :=
  let n := c.toNat
  n = 0x09 ∨ n = 0x0A ∨ n = 0x0D ∨ (0x20 ≤ n ∧ n ≤ 0x7E) ∨ n = 0x85 ∨ (0xA0 ≤ n ∧ n ≤ 0xFFFD) ∨
    0x10000 ≤ n

/-- Whether a text is at its end or goes on with a blank or a line end. -/
def atSpace : List Char → Bool
  | [] => true
  | c :: _ => isSpace c

/-- Whether a text is at its end or goes on with a line end. -/
def atLineEnd : List Char → Bool
  | [] => true
  | c :: _ => isBreak c

/-- Whether a text goes on with a blank. -/
def atBlank : List Char → Bool
  | [] => false
  | c :: _ => isBlank c

/-- A place in a text. -/
structure Position where
  /-- The number of characters before it. -/
  index : Nat
  line : Nat
  column : Nat
deriving DecidableEq, Repr

namespace Position

/-- The place `n` characters further on the same line. -/
def advance (p : Position) (n : Nat) : Position :=
  { p with index := p.index + n, column := p.column + n }

/-- The first place of the next line, `n` characters further. -/
def nextLine (p : Position) (n : Nat) : Position :=
  ⟨p.index + n, p.line + 1, 0⟩

end Position

/-- The rest of a text and its place. -/
structure Cursor where
  rest : List Char
  position : Position

namespace Cursor

/-- The column of the cursor. -/
def column (c : Cursor) : Nat :=
  c.position.column

/-- The cursor `n` characters further on the same line. -/
def advance (c : Cursor) (n : Nat) : Cursor :=
  ⟨c.rest.drop n, c.position.advance n⟩

/-- The cursor after the characters that satisfy `p`, none of which ends a line. -/
def skipWhile (p : Char → Bool) (c : Cursor) : Cursor :=
  c.advance (c.rest.takeWhile p).length

/-- The cursor after a line end, if there is one. -/
def skipBreak (c : Cursor) : Cursor :=
  match c.rest with
  | '\r' :: '\n' :: rest => ⟨rest, c.position.nextLine 2⟩
  | b :: rest => if isBreak b then ⟨rest, c.position.nextLine 1⟩ else c
  | [] => c

/-- The cursor after blanks and a comment. -/
def skipToLineEnd (c : Cursor) : Cursor :=
  let c := c.skipWhile isBlank
  match c.rest with
  | '#' :: _ => c.skipWhile fun b => ! isBreak b
  | _ => c

end Cursor

/-- Whether a line that starts here is `---` or `...`, alone or before a blank. -/
def atDocumentMark : List Char → Bool
  | '-' :: '-' :: '-' :: rest => atSpace rest
  | '.' :: '.' :: '.' :: rest => atSpace rest
  | _ => false

end LibraryModels.Yaml
