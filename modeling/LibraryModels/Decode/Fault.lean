import LibraryModels.Decimal.Number
import LibraryModels.Text.Quoted

/-!
# Faults in well-formed documents

A document that can be read may still say something other than what is asked of it. A fault names
what was found and what was expected. The wording is the same for all formats, except for the word
for an absent value and for the text of a double.
-/

namespace LibraryModels

open Decimal (Double)

/-- What stands in a document where something else was expected. -/
inductive Found where
  | null
  | bool (b : Bool)
  | integer (n : Int)
  | float (x : Double)
  | string (s : String)
  | sequence
  | mapping
deriving DecidableEq, Repr

/-- Why a well-formed document does not decode. -/
inductive Fault where
  /-- A value of the wrong type. -/
  | invalidType (found : Found) (expected : String)
  /-- A value of the right type that is out of range. -/
  | invalidValue (found : Found) (expected : String)
  /-- A list with the wrong number of items. -/
  | invalidLength (length : Nat) (expected : String)
  | missingField (field : String)
  | duplicateField (field : String)
  | unknownField (field : String) (known : List String)
  | unknownVariant (variant : String) (known : List String)
  /-- No alternative of the named type fits. -/
  | noAlternative (type : String)
  /-- A text that is no signature. -/
  | notASignature (text : String)
deriving DecidableEq, Repr

/-- What differs between formats in the wording of a fault. -/
structure Wording where
  null : String
  float : Double → String

/-- The words for what was found. -/
def Found.text (wording : Wording) : Found → String
  | .null => wording.null
  | .bool b => "boolean `" ++ (if b then "true" else "false") ++ "`"
  | .integer n => "integer `" ++ Number.integerText n ++ "`"
  | .float x => "floating point `" ++ wording.float x ++ "`"
  | .string s => "string " ++ Text.quote s
  | .sequence => "sequence"
  | .mapping => "map"

/-- A name between backquotes. -/
def ticked (s : String) : String :=
  "`" ++ s ++ "`"

/-- The expected alternatives in words. -/
def alternatives : List String → String
  | [] => "there are no variants"
  | [a] => "expected " ++ ticked a
  | [a, b] => "expected " ++ ticked a ++ " or " ++ ticked b
  | names => "expected one of " ++ ", ".intercalate (names.map ticked)

/-- The message of an invalid signature. -/
def invalidSignatureText (s : String) : String :=
  "Invalid method signature: " ++ s

/-- The words for a fault. -/
def Fault.text (wording : Wording) : Fault → String
  | .invalidType found expected =>
    "invalid type: " ++ found.text wording ++ ", expected " ++ expected
  | .invalidValue found expected =>
    "invalid value: " ++ found.text wording ++ ", expected " ++ expected
  | .invalidLength length expected =>
    "invalid length " ++ Number.integerText length ++ ", expected " ++ expected
  | .missingField field => "missing field " ++ ticked field
  | .duplicateField field => "duplicate field " ++ ticked field
  | .unknownField field known =>
    "unknown field " ++ ticked field ++ ", " ++ alternatives known
  | .unknownVariant variant known =>
    "unknown variant " ++ ticked variant ++ ", " ++ alternatives known
  | .noAlternative type => "data did not match any variant of untagged enum " ++ type
  | .notASignature s => "[invalid_signature] " ++ invalidSignatureText s

/-- A count of items in words. -/
def countOf (n : Nat) : String :=
  if n = 1 then "1 element" else Number.integerText n ++ " elements"

end LibraryModels
