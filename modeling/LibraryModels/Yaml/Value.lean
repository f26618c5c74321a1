import LibraryModels.Decimal.Number

/-!
# YAML values

What a YAML document says, without its layout. Mappings keep the order of the document. A tag is
kept only where it is the document's own, as in `!name value`.
-/

namespace LibraryModels.Yaml

/-- A YAML value. -/
inductive Value where
  | null
  | bool (b : Bool)
  | number (n : Number)
  | string (s : String)
  | sequence (items : List Value)
  | mapping (entries : List (Value × Value))
  | tagged (tag : String) (value : Value)

instance : Inhabited Value := ⟨.null⟩

/--
How numbers are written in YAML: the exponent bare, infinity and not-a-number with a dot in front.
-/
def exponentStyle : Decimal.ExponentStyle where
  signed := false
  width := 1
  infinity := ".inf"
  nan := ".nan"

/-- The text of a number in YAML. -/
def numberText (n : Number) : String :=
  n.text exponentStyle

/-- The text of a boolean. -/
def boolText (b : Bool) : String :=
  if b then "true" else "false"

namespace Value

/-- The text of a string, boolean or number; the other values have none. -/
def scalarText? : Value → Option String
  | .string s => some s
  | .bool b => some (boolText b)
  | .number n => some (numberText n)
  | _ => none

mutual

/-- Equal as values: mappings in any order, and numbers as numbers. -/
def same : Value → Value → Bool
  | .null, .null => true
  | .bool a, .bool b => a == b
  | .number a, .number b => a.same b
  | .string a, .string b => a == b
  | .sequence xs, .sequence ys => sameItems xs ys
  | .mapping xs, .mapping ys => xs.length == ys.length && sameEntries xs ys
  | .tagged s x, .tagged t y => s == t && same x y
  | _, _ => false

/-- Equal item by item. -/
def sameItems : List Value → List Value → Bool
  | [], [] => true
  | x :: xs, y :: ys => same x y && sameItems xs ys
  | _, _ => false

/-- Every entry of the first list has an equal one in the second. -/
def sameEntries : List (Value × Value) → List (Value × Value) → Bool
  | [], _ => true
  | (k, v) :: rest, ys => ys.any (fun e => same k e.1 && same v e.2) && sameEntries rest ys

end

end Value

end LibraryModels.Yaml
