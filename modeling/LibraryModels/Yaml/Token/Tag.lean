import LibraryModels.Yaml.Token
import LibraryModels.Yaml.Token.Quoted

/-!
# Tags, anchors and directives

The short tokens that name things: anchors and aliases, tags with an optional handle, and the
directives that stand before a document.
-/

namespace LibraryModels.Yaml

/--
Reads the name of an anchor or alias after its first character; it has to end in front of a
fitting character.
-/
def readAnchorName (c : Cursor) : Option (String × Cursor) :=
  let name := c.rest.takeWhile isWordChar
  let after := c.advance name.length
  let ends :=
    match after.rest with
    | [] => true
    | n :: _ => isSpace n || n ∈ ['?', ':', ',', ']', '\x7d', '%', '@', '\x60']
  if name.isEmpty || ! ends then none else some (String.ofList name, after)

/-- The characters of a tag's suffix; a tag between angle brackets may hold some more. -/
def isTagChar (verbatim : Bool) (c : Char) : Bool :=
  isWordChar c ||
    c ∈ [';', '/', '?', ':', '@', '&', '=', '+', '$', '.', '!', '~', '*', '\'', '(', ')'] ||
    verbatim && c ∈ [',', '[', ']']

/-- The length of the UTF-8 sequence that begins with a byte. -/
def sequenceLength? (byte : Nat) : Option Nat :=
  if byte < 0x80 then some 1
  else if 0xC0 ≤ byte ∧ byte < 0xE0 then some 2
  else if 0xE0 ≤ byte ∧ byte < 0xF0 then some 3
  else if 0xF0 ≤ byte ∧ byte < 0xF8 then some 4
  else none

/--
Reads the suffix of a tag, the last character first. `pending` bytes of an escaped character are
still due.
-/
def readTagChars (verbatim : Bool) (pending : Nat) (bytes : List Nat) (text : List Char) :
    List Char → Option (List Char × Nat)
  | '%' :: a :: b :: rest => do
    let byte ← Text.hexNumber? [a, b]
    let due ← if pending = 0 then sequenceLength? byte
      else if 0x80 ≤ byte ∧ byte < 0xC0 then some pending else none
    let bytes := byte :: bytes
    if due = 1 then
      let c ← decodeBytes bytes.reverse
      let (text, used) ← readTagChars verbatim 0 [] (c :: text) rest
      return (text, used + 3)
    else
      let (text, used) ← readTagChars verbatim (due - 1) bytes text rest
      return (text, used + 3)
  | c :: rest =>
    if pending ≠ 0 ∨ c = '%' then none
    else if isTagChar verbatim c then do
      let (text, used) ← readTagChars verbatim 0 [] (c :: text) rest
      return (text, used + 1)
    else some (text, 0)
  | [] => if pending ≠ 0 then none else some (text, 0)
where
  /-- The character of a UTF-8 sequence. -/
  decodeBytes (bytes : List Nat) : Option Char :=
    match String.fromUTF8? ⟨(bytes.map UInt8.ofNat).toArray⟩ with
    | some s => s.toList.head?
    | none => none

/-- Reads the suffix of a tag; it must not be empty unless `lead` is there. -/
def readSuffix (verbatim : Bool) (lead : List Char) (c : Cursor) : Option (String × Cursor) := do
  let (text, used) ← readTagChars verbatim 0 [] (lead.drop 1).reverse c.rest
  guard (! lead.isEmpty || used ≠ 0)
  return (String.ofList text.reverse, c.advance used)

/-- Reads `!`, a word and a second `!` if there is one. -/
def readHandle (c : Cursor) : Option (List Char × Cursor) :=
  match c.rest with
  | '!' :: rest =>
    let word := rest.takeWhile isWordChar
    match rest.drop word.length with
    | '!' :: _ => some ('!' :: word ++ ['!'], c.advance (word.length + 2))
    | _ => some ('!' :: word, c.advance (word.length + 1))
  | _ => none

/-- Whether the text of a handle ends with a second `!`. -/
def isFullHandle (handle : List Char) : Bool :=
  handle.length > 1 && handle.getLast? = some '!'

/-- Reads a tag at the cursor. -/
def readTag (inFlow : Bool) (c : Cursor) : Option (Token × Cursor) := do
  let (token, c) ← match c.rest with
    | '!' :: '<' :: _ => do
      let (suffix, c) ← readSuffix true [] (c.advance 2)
      guard (c.rest.head? = some '>')
      some (Token.tag "" suffix, c.advance 1)
    | _ => do
      let (handle, c) ← readHandle c
      if isFullHandle handle then
        let (suffix, c) ← readSuffix false [] c
        some (Token.tag (String.ofList handle) suffix, c)
      else
        let (suffix, c) ← readSuffix false handle c
        if suffix.isEmpty then some (Token.tag "" "!", c) else some (Token.tag "!" suffix, c)
  guard (atSpace c.rest || inFlow && c.rest.head? = some ',')
  return (token, c)

/-- Reads a number of at most nine digits. -/
def readVersionNumber (c : Cursor) : Option (Nat × Cursor) :=
  let digits := c.rest.takeWhile Char.isDigit
  if digits.isEmpty ∨ digits.length > 9 then none
  else some (digits.foldl (fun n d => n * 10 + (d.toNat - '0'.toNat)) 0, c.advance digits.length)

/-- Reads what follows the name of a directive. -/
def readDirectiveValue (name : String) (c : Cursor) : Option (Token × Cursor) :=
  match name with
  | "YAML" => do
    let (major, c) ← readVersionNumber (c.skipWhile isBlank)
    guard (c.rest.head? = some '.')
    let (minor, c) ← readVersionNumber (c.advance 1)
    return (.versionDirective major minor, c)
  | "TAG" => do
    let (handle, c) ← readHandle (c.skipWhile isBlank)
    guard (handle = ['!'] || isFullHandle handle)
    guard (atBlank c.rest)
    let (lead, c) ← readSuffix true [] (c.skipWhile isBlank)
    guard (atSpace c.rest)
    return (.tagDirective (String.ofList handle) lead, c)
  | _ => none

/--
Reads a directive; the cursor stands at its `%`. Nothing but a comment may follow on the line.
-/
def readDirective (c : Cursor) : Option (Token × Cursor) := do
  let c := c.advance 1
  let name := c.rest.takeWhile isWordChar
  let c := c.advance name.length
  guard (! name.isEmpty && atSpace c.rest)
  let (token, c) ← readDirectiveValue (String.ofList name) c
  let c := c.skipToLineEnd
  guard (atLineEnd c.rest)
  return (token, c.skipBreak)

end LibraryModels.Yaml
