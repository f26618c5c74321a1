import LibraryModels.Decimal.Number
import LibraryModels.Text.Quoted

/-!
# JSON values and their text

The compact text of a JSON value. Strings escape quotes, backslashes and controls only; members
stand in the order of the value.
-/

namespace LibraryModels.Json

/-- A JSON value. -/
inductive Value where
  | null
  | bool (b : Bool)
  | number (n : Number)
  | string (s : String)
  | array (items : List Value)
  | object (members : List (String × Value))

instance : Inhabited Value := ⟨.null⟩

/-- How numbers are written in JSON: an exponent has a sign and at least two digits. -/
def exponentStyle : Decimal.ExponentStyle where
  signed := true
  width := 2
  infinity := "inf"
  nan := "NaN"

/-- How a character stands inside a JSON string. -/
def escapedChar (c : Char) : List Char :=
  match c with
  | '"' => ['\\', '"']
  | '\\' => ['\\', '\\']
  | '\x08' => ['\\', 'b']
  | '\x0c' => ['\\', 'f']
  | '\n' => ['\\', 'n']
  | '\r' => ['\\', 'r']
  | '\t' => ['\\', 't']
  | c =>
    if c.toNat < 0x20 then
      ['\\', 'u', '0', '0', Nat.digitChar (c.toNat / 16), Nat.digitChar (c.toNat % 16)]
    else [c]

/-- The text of a string. -/
def stringText (s : String) : List Char :=
  '"' :: s.toList.flatMap escapedChar ++ ['"']

/-- Texts with commas between them. -/
def commaSeparated : List (List Char) → List Char
  | [] => []
  | [last] => last
  | text :: rest => text ++ ',' :: commaSeparated rest

mutual

/-- The compact text of a value, as characters. -/
def Value.chars : Value → List Char
  | .null => "null".toList
  | .bool b => (if b then "true" else "false").toList
  | .number n => (n.text exponentStyle).toList
  | .string s => stringText s
  | .array items => '[' :: commaSeparated (itemChars items) ++ [']']
  | .object members => '\x7b' :: commaSeparated (memberChars members) ++ ['\x7d']

/-- The texts of the items of an array. -/
def itemChars : List Value → List (List Char)
  | [] => []
  | item :: rest => item.chars :: itemChars rest

/-- The texts of the members of an object. -/
def memberChars : List (String × Value) → List (List Char)
  | [] => []
  | (key, value) :: rest => (stringText key ++ ':' :: value.chars) :: memberChars rest

end

/-- The compact text of a value. -/
def Value.text (v : Value) : String :=
  String.ofList v.chars

end LibraryModels.Json
