import LibraryModels.Json.Numeral
import LibraryModels.Json.Value
import LibraryModels.Text.Hexadecimal

/-!
# The outline of a JSON text

A text is read from the front as far as it is well-formed. The outline holds what was read: a
container that the text breaks off in is not closed, and a value that could not be read at all is
broken. So a reader that looks for particular values can say what is wrong with the first of them
even if the text breaks off later, and can pass over a value without judging the size of its
numerals or the pairing of surrogates in its strings.
-/

namespace LibraryModels.Json

/-- A JSON text as far as it can be read. -/
inductive Source where
  | null
  | bool (b : Bool)
  | numeral (n : Numeral)
  /-- A string; nothing if an escape is half of a surrogate pair. -/
  | string (s : Option String)
  | array (items : List Source) (closed : Bool)
  | object (members : List (Option String × Source)) (closed : Bool)
  | broken

instance : Inhabited Source := ⟨.broken⟩

namespace Source

/-- The characters between tokens. -/
def isSpace (c : Char) : Bool :=
  c = ' ' ∨ c = '\n' ∨ c = '\t' ∨ c = '\r'

/-- The text after leading space. -/
def skipSpace (cs : List Char) : List Char :=
  cs.dropWhile isSpace

/-- One element of a string: a character, or the code unit of a numeric escape. -/
inductive Piece where
  | char (c : Char)
  | unit (n : Nat)
deriving DecidableEq, Repr

/-- The character that a short escape stands for. -/
def shortEscape? : Char → Option Char
  | '"' => some '"'
  | '\\' => some '\\'
  | '/' => some '/'
  | 'b' => some '\x08'
  | 'f' => some '\x0c'
  | 'n' => some '\n'
  | 'r' => some '\r'
  | 't' => some '\t'
  | _ => none

/-- The elements of a string up to the closing quote, and the text after it. -/
def readPieces : List Char → Option (List Piece × List Char)
  | '"' :: rest => some ([], rest)
  | '\\' :: 'u' :: a :: b :: c :: d :: rest =>
    match Text.hexNumber? [a, b, c, d], readPieces rest with
    | some n, some (pieces, rest) => some (.unit n :: pieces, rest)
    | _, _ => none
  | '\\' :: e :: rest =>
    match shortEscape? e, readPieces rest with
    | some c, some (pieces, rest) => some (.char c :: pieces, rest)
    | _, _ => none
  | c :: rest =>
    if c.toNat < 0x20 ∨ c = '\\' then none
    else
      match readPieces rest with
      | some (pieces, rest) => some (.char c :: pieces, rest)
      | none => none
  | [] => none

/-- The first half of a surrogate pair. -/
def isHighSurrogate (n : Nat) : Bool :=
  0xD800 ≤ n ∧ n < 0xDC00

/-- The second half of a surrogate pair. -/
def isLowSurrogate (n : Nat) : Bool :=
  0xDC00 ≤ n ∧ n < 0xE000

/-- The text of the elements, if every surrogate is paired. -/
def decodePieces : List Piece → Option (List Char)
  | [] => some []
  | .char c :: rest => (decodePieces rest).map (c :: ·)
  | .unit n :: .unit m :: rest =>
    if isHighSurrogate n ∧ isLowSurrogate m then
      (decodePieces rest).map (Char.ofNat (0x10000 + (n - 0xD800) * 0x400 + (m - 0xDC00)) :: ·)
    else if isHighSurrogate n ∨ isLowSurrogate n then none
    else (decodePieces (.unit m :: rest)).map (Char.ofNat n :: ·)
  | .unit n :: rest =>
    if isHighSurrogate n ∨ isLowSurrogate n then none
    else (decodePieces rest).map (Char.ofNat n :: ·)

/-- Reads a string after its opening quote. -/
def readString (cs : List Char) : Option (Option String × List Char) :=
  (readPieces cs).map fun (pieces, rest) => ((decodePieces pieces).map String.ofList, rest)

/-- The text after the word `word`, if the text begins with it. -/
def afterWord (word : List Char) (cs : List Char) : Option (List Char) :=
  if word.isPrefixOf cs then some (cs.drop word.length) else none

/-- A value and what follows it; nothing follows where the text breaks off. -/
abbrev Reading := Source × Option (List Char)

/-- The reading of a value that was recognised, or a broken one. -/
def Reading.ofOption (r : Option (Source × List Char)) : Reading :=
  match r with
  | some (value, rest) => (value, some rest)
  | none => (.broken, none)

mutual

/-- Reads a value; `fuel` bounds the number of nested and following values. -/
def readValue (fuel : Nat) (cs : List Char) : Reading :=
  match fuel with
  | 0 => (.broken, none)
  | fuel + 1 =>
    match skipSpace cs with
    | 'n' :: rest => Reading.ofOption ((afterWord ['u', 'l', 'l'] rest).map (.null, ·))
    | 't' :: rest => Reading.ofOption ((afterWord ['r', 'u', 'e'] rest).map (.bool true, ·))
    | 'f' :: rest => Reading.ofOption ((afterWord ['a', 'l', 's', 'e'] rest).map (.bool false, ·))
    | '"' :: rest => Reading.ofOption ((readString rest).map fun (s, rest) => (.string s, rest))
    | '[' :: rest =>
      match skipSpace rest with
      | ']' :: rest => (.array [] true, some rest)
      | rest =>
        let (items, rest) := readItems fuel rest
        (.array items rest.isSome, rest)
    | '\x7b' :: rest =>
      match skipSpace rest with
      | '\x7d' :: rest => (.object [] true, some rest)
      | rest =>
        let (members, rest) := readMembers fuel rest
        (.object members rest.isSome, rest)
    | rest => Reading.ofOption ((Numeral.read rest).map fun (n, rest) => (.numeral n, rest))

/-- Reads the items of an array up to its end; at least one item is due. -/
def readItems (fuel : Nat) (cs : List Char) : List Source × Option (List Char) :=
  match fuel with
  | 0 => ([], none)
  | fuel + 1 =>
    match readValue fuel cs with
    | (item, none) => ([item], none)
    | (item, some rest) =>
      match skipSpace rest with
      | ']' :: rest => ([item], some rest)
      | ',' :: rest =>
        match skipSpace rest with
        | [] => ([item], none)
        | ']' :: _ => ([item], none)
        | rest =>
          let (items, rest) := readItems fuel rest
          (item :: items, rest)
      | _ => ([item], none)

/-- Reads the members of an object up to its end; at least one member is due. -/
def readMembers (fuel : Nat) (cs : List Char) :
    List (Option String × Source) × Option (List Char) :=
  match fuel with
  | 0 => ([], none)
  | fuel + 1 =>
    match skipSpace cs with
    | '"' :: rest =>
      match readString rest with
      | none => ([], none)
      | some (key, rest) =>
        match skipSpace rest with
        | ':' :: rest =>
          match readValue fuel rest with
          | (value, none) => ([(key, value)], none)
          | (value, some rest) =>
            match skipSpace rest with
            | '\x7d' :: rest => ([(key, value)], some rest)
            | ',' :: rest =>
              let (members, rest) := readMembers fuel rest
              ((key, value) :: members, rest)
            | _ => ([(key, value)], none)
        | _ => ([(key, .broken)], none)
    | _ => ([], none)

end

/-- The outline of a text, and whether nothing but space follows the value. -/
def ofText (s : String) : Source × Bool :=
  let cs := s.toList
  match readValue (cs.length + 1) cs with
  | (value, some rest) => (value, (skipSpace rest).isEmpty)
  | (value, none) => (value, false)

end Source

end LibraryModels.Json
