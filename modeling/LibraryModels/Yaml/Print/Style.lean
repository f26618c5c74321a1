import LibraryModels.Yaml.Cursor
import LibraryModels.Yaml.Scalar

/-!
# Choosing the style of a text

A text is written plain if it reads back as the same text, and otherwise in the first style that
can hold it: texts with a line feed as a literal block or between double quotes, others between
single quotes or double quotes.
-/

namespace LibraryModels.Yaml.Print

/--
The characters that stand for themselves; all others are escaped, which only double quotes allow.
-/
def isDirect (c : Char) : Bool :=
  let n := c.toNat
  c = '\n' ∨ (0x20 ≤ n ∧ n ≤ 0x7E) ∨ (0xA0 ≤ n ∧ n ≤ 0xFFFD ∧ n ≠ 0xFEFF) ∨ 0x10000 ≤ n

/-- Whether two neighbours satisfy `p` and `q`. -/
def hasNeighbours (p q : Char → Bool) : List Char → Bool
  | a :: b :: rest => p a && q b || hasNeighbours p q (b :: rest)
  | _ => false

/-- A space, and no tab. -/
def isSpaceChar (c : Char) : Bool :=
  c = ' '

/-- The characters that begin something else than a plain scalar. -/
def isLeadIndicator (c : Char) : Bool :=
  c ∈ ['#', ',', '[', ']', '\x7b', '\x7d', '&', '*', '!', '|', '>', '\'', '"', '%', '@', '\x60']

/-- Whether a text begins like something else than a plain scalar. -/
def startsWithIndicator : List Char → Bool
  | [] => false
  | c :: rest => isLeadIndicator c || (c = '?' || c = ':' || c = '-') && atSpace rest

/-- Whether a text begins like a document mark. -/
def startsWithMark (cs : List Char) : Bool :=
  ['-', '-', '-'].isPrefixOf cs || ['.', '.', '.'].isPrefixOf cs

/--
Whether a plain scalar would end inside the text: at a colon before space, or at a number sign
after space.
-/
def endsEarly (afterSpace : Bool) : List Char → Bool
  | [] => false
  | c :: rest => c = ':' && atSpace rest || c = '#' && afterSpace || endsEarly (isSpace c) rest

/-- Whether a text begins or ends with a space or a line end. -/
def hasOuterSpace (cs : List Char) : Bool :=
  let isOuter (c : Char) : Bool := c = ' ' || isBreak c
  cs.head?.any isOuter || cs.getLast?.any isOuter

/-- Every character stands for itself, and no line ends with a space. -/
def isTidy (cs : List Char) : Bool :=
  cs.all isDirect && ! hasNeighbours isSpaceChar isBreak cs

/-- Whether a text can be written plain. -/
def allowsPlain (cs : List Char) : Bool :=
  cs.all isDirect && ! cs.any isBreak && ! hasOuterSpace cs && ! startsWithIndicator cs &&
    ! startsWithMark cs && ! endsEarly true cs

/-- Whether a text can be written between single quotes. -/
def allowsSingleQuoted (cs : List Char) : Bool :=
  isTidy cs && ! hasNeighbours isBreak isSpaceChar cs

/-- Whether a text can be written as a literal block. -/
def allowsLiteral (cs : List Char) : Bool :=
  isTidy cs && ! cs.getLast?.any isSpaceChar

/-- Whether a text that is written plain is read as a text. -/
def readsAsText (s : String) : Bool :=
  match plainValue? s with
  | some (.string _) => ! Scalar.isPaddedNumeral s
  | _ => false

/-- The style in which a text is written. -/
def styleOf (s : String) : Style :=
  let cs := s.toList
  if '\n' ∈ cs then (if allowsLiteral cs then .literal else .doubleQuoted)
  else if readsAsText s ∧ allowsPlain cs then .plain
  else if allowsSingleQuoted cs then .singleQuoted
  else .doubleQuoted

end LibraryModels.Yaml.Print
