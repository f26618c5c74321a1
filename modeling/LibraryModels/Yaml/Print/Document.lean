import LibraryModels.Text.Bytes
import LibraryModels.Yaml.Print.Scalar

/-!
# Writing documents

The items of a sequence and the entries of a mapping have a line each. Items of a sequence inside
a mapping are not indented; everything else is indented by two columns. A collection after nothing
but dashes begins on the same line. Keys that are short and on one line are written before a
colon, others after a question mark.
-/

namespace LibraryModels.Yaml.Print

/-- A place for a value, after the mark of an item, a key or a value. -/
structure Place where
  /-- The column of the collection around it. -/
  indent : Nat
  inMapping : Bool
  /-- Nothing but indentation and marks is before it on the line. -/
  opening : Bool

/-- The characters besides those of words that are written as they are in a tag. -/
def tagMarks : List Char :=
  [';', '/', '?', ':', '@', '&', '=', '+', '$', ',', '.', '~', '*', '\'', '(', ')', '[', ']']

/-- How a character of a tag is written. -/
def tagChar (c : Char) : List Char :=
  if isWordChar c || c ∈ tagMarks then [c]
  else (Text.bytes c.toString).flatMap fun b => '%' :: hexDigits 2 b.toNat

/-- A tag of the document's own. -/
def tagText (name : String) : List Char :=
  '!' :: name.toList.flatMap tagChar

/-- The text of a value that is no text, no tagged value and no collection with parts. -/
def simpleText? : Value → Option (List Char)
  | .null => some "null".toList
  | .bool b => some (boolText b).toList
  | .number n => some (numberText n).toList
  | .sequence [] => some ['[', ']']
  | .mapping [] => some ['\x7b', '\x7d']
  | _ => none

/-- The number of bytes of a text. -/
def byteLength (s : String) : Nat :=
  (Text.bytes s).length

/-- How long a value is as a key, unless it cannot be one on one line. -/
def keyLength? : Value → Option Nat
  | .string s => if s.toList.any isBreak then none else some (byteLength s)
  | .tagged name v => (keyLength? v).map (· + (1 + byteLength name))
  | .sequence [] => some 0
  | .mapping [] => some 0
  | v => (simpleText? v).map List.length

/-- Whether a value is short enough to stand before a colon. -/
def isShortKey (v : Value) : Bool :=
  (keyLength? v).any (· ≤ 128)

/-- A key that stands before a colon. -/
def keyText (indent : Nat) : Value → List Char
  | .string s => inlineText indent s
  | .tagged name v => tagText name ++ ' ' :: keyText indent v
  | v => (simpleText? v).getD []

/-- An entry in the column `indent`, from its key, the key at a place of its own, and its value. -/
def entryText (indent : Nat) (key : Value) (longKey value : List Char) : List Char :=
  if isShortKey key then keyText (indent + 2) key ++ ':' :: value
  else '?' :: (longKey ++ (spaces indent ++ ':' :: value))

mutual

/-- A value at a place, with the line end after it. -/
def valueText (place : Place) : Value → List Char
  | .string s => ' ' :: textLine (place.indent + 2) s
  | .tagged name v => ' ' :: tagText name ++ valueText { place with opening := false } v
  | .sequence (item :: items) =>
    let indent := if place.inMapping && ! place.opening then place.indent else place.indent + 2
    (if place.opening then [' '] else '\n' :: spaces indent) ++
      '-' :: (valueText ⟨indent, false, true⟩ item ++ itemLines indent items)
  | .mapping ((key, v) :: entries) =>
    let indent := place.indent + 2
    (if place.opening then [' '] else '\n' :: spaces indent) ++
      (entryText indent key (valueText ⟨indent, true, true⟩ key)
        (valueText ⟨indent, true, ! isShortKey key⟩ v) ++ entryLines indent entries)
  | v => ' ' :: (simpleText? v).getD [] ++ ['\n']

/-- The items after the first one, in the column `indent`. -/
def itemLines (indent : Nat) : List Value → List Char
  | [] => []
  | item :: items =>
    spaces indent ++ '-' :: (valueText ⟨indent, false, true⟩ item ++ itemLines indent items)

/-- The entries after the first one, in the column `indent`. -/
def entryLines (indent : Nat) : List (Value × Value) → List Char
  | [] => []
  | (key, v) :: entries =>
    spaces indent ++
      (entryText indent key (valueText ⟨indent, true, true⟩ key)
        (valueText ⟨indent, true, ! isShortKey key⟩ v) ++ entryLines indent entries)

end

/-- The text of a document whose root is a mapping. -/
def documentText (entries : List (Value × Value)) : String :=
  String.ofList (if entries.isEmpty then ['\x7b', '\x7d', '\n'] else entryLines 0 entries)

end LibraryModels.Yaml.Print
