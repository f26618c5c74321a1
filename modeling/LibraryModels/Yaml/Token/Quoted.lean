import LibraryModels.Text.Hexadecimal
import LibraryModels.Yaml.Token.Plain

/-!
# Quoted scalars

Between single quotes a quote is written twice and nothing else is special. Between double quotes
a backslash begins an escape. Line ends are folded in both as they are in plain scalars.
-/

namespace LibraryModels.Yaml

/-- What has been read of a quoted scalar. -/
structure QuotedState where
  /-- The text so far, the last character first. -/
  text : List Char := []
  gap : Gap := {}
  /-- The next character is the first, or the first after a gap. -/
  fresh : Bool := true

/-- The character with a number, unless it is a surrogate or too large. -/
def charOfNumber? (n : Nat) : Option Char :=
  if h : n.isValidChar then some (Char.ofNatAux n h) else none

/-- The character that digits of a numeric escape stand for. -/
def numericEscape? (digits : List Char) : Option Char :=
  Text.hexNumber? digits >>= charOfNumber?

/-- The character that an escape of one letter stands for. -/
def letterEscape? : Char → Option Char
  | '0' => some '\x00'
  | 'a' => some '\x07'
  | 'b' => some '\x08'
  | 't' => some '\t'
  | '\t' => some '\t'
  | 'n' => some '\n'
  | 'v' => some '\x0b'
  | 'f' => some '\x0c'
  | 'r' => some '\r'
  | 'e' => some '\x1b'
  | ' ' => some ' '
  | '"' => some '"'
  | '/' => some '/'
  | '\\' => some '\\'
  | 'N' => some '\x85'
  | '_' => some '\xa0'
  | 'L' => some '\u2028'
  | 'P' => some '\u2029'
  | _ => none

namespace QuotedState

/-- Takes a character of the scalar. -/
def push (state : QuotedState) (c : Char) : QuotedState where
  text := c :: (state.gap.text.reverse ++ state.text)
  gap := {}
  fresh := false

/-- Takes a blank. -/
def blank (state : QuotedState) (c : Char) : QuotedState :=
  { state with gap := state.gap.addBlank c, fresh := true }

/-- Takes a line end. -/
def lineEnd (state : QuotedState) (c : Char) : QuotedState :=
  { state with gap := state.gap.addBreak c, fresh := true }

/-- Takes an escaped line end. -/
def foldHere (state : QuotedState) : QuotedState where
  text := state.gap.text.reverse ++ state.text
  gap := Gap.escapedBreak
  fresh := true

/-- The scalar that ends before the closing quote, and the cursor after the quote. -/
def finish (state : QuotedState) (rest : List Char) (position : Position) : String × Cursor :=
  (String.ofList (state.gap.text.reverse ++ state.text).reverse, ⟨rest, position.advance 1⟩)

/-- Whether a document mark stands where the scalar should go on. -/
def atMark (state : QuotedState) (position : Position) (rest : List Char) : Bool :=
  state.fresh && position.column = 0 && atDocumentMark rest

/-- Reads on to the closing single quote. -/
def readSingle (state : QuotedState) (position : Position) : List Char → Option (String × Cursor)
  | [] => none
  | '\r' :: '\n' :: rest => readSingle (state.lineEnd '\n') (position.nextLine 2) rest
  | '\'' :: '\'' :: rest =>
    readSingle (state.push '\'') (position.advance 2) rest
  | c :: rest =>
    if isBreak c then readSingle (state.lineEnd c) (position.nextLine 1) rest
    else if isBlank c then readSingle (state.blank c) (position.advance 1) rest
    else if state.atMark position (c :: rest) then none
    else if c = '\'' then some (state.finish rest position)
    else readSingle (state.push c) (position.advance 1) rest

/-- Reads on to the closing double quote. -/
def readDouble (state : QuotedState) (position : Position) : List Char → Option (String × Cursor)
  | [] => none
  | '\r' :: '\n' :: rest => readDouble (state.lineEnd '\n') (position.nextLine 2) rest
  | '\\' :: '\r' :: '\n' :: rest => readDouble state.foldHere (position.nextLine 3) rest
  | '\\' :: 'x' :: a :: b :: rest =>
    match numericEscape? [a, b] with
    | some c => readDouble (state.push c) (position.advance 4) rest
    | none => none
  | '\\' :: 'u' :: a :: b :: c :: d :: rest =>
    match numericEscape? [a, b, c, d] with
    | some c => readDouble (state.push c) (position.advance 6) rest
    | none => none
  | '\\' :: 'U' :: a :: b :: c :: d :: e :: f :: g :: h :: rest =>
    match numericEscape? [a, b, c, d, e, f, g, h] with
    | some c => readDouble (state.push c) (position.advance 10) rest
    | none => none
  | '\\' :: e :: rest =>
    if isBreak e then readDouble state.foldHere (position.nextLine 2) rest
    else
      match letterEscape? e with
      | some c => readDouble (state.push c) (position.advance 2) rest
      | none => none
  | c :: rest =>
    if isBreak c then readDouble (state.lineEnd c) (position.nextLine 1) rest
    else if isBlank c then readDouble (state.blank c) (position.advance 1) rest
    else if state.atMark position (c :: rest) then none
    else if c = '\\' then none
    else if c = '"' then some (state.finish rest position)
    else readDouble (state.push c) (position.advance 1) rest

end QuotedState

/-- Reads a scalar between single quotes; the cursor stands at the opening quote. -/
def readSingleQuoted (c : Cursor) : Option (String × Cursor) :=
  QuotedState.readSingle {} (c.position.advance 1) (c.rest.drop 1)

/-- Reads a scalar between double quotes; the cursor stands at the opening quote. -/
def readDoubleQuoted (c : Cursor) : Option (String × Cursor) :=
  QuotedState.readDouble {} (c.position.advance 1) (c.rest.drop 1)

end LibraryModels.Yaml
