import LibraryModels.Decode.Fault
import LibraryModels.Json.Source
import LibraryModels.Named

/-!
# Decoding JSON

Decoders look at an outline from the front, so that of two mistakes the first in the text is
reported. A mistake in the form of the text has no further description; a mistake in what it says
is a fault. Values may be nested 127 deep.
-/

namespace LibraryModels.Json

/-- Why a JSON text does not decode. -/
inductive Error where
  /--
  The text breaks off, goes on after its end, is nested too deep or holds what JSON does not
  allow.
  -/
  | malformed
  | fault (f : Fault)
deriving DecidableEq, Repr

/-- The words that JSON has of its own in messages. -/
def wording : Wording where
  null := "null"
  float := fun x => x.text exponentStyle

/-- The message of an error; a malformed text has none. -/
def Error.message? : Error → Option String
  | .malformed => none
  | .fault f => some (f.text wording)

/-- How deep containers may be nested. -/
def nestingLimit : Nat := 127

/-- Goes into a container, unless the nesting is used up. -/
def enter {α : Type} (depth : Nat) (inside : Nat → Except Error α) : Except Error α :=
  match depth with
  | 0 => .error .malformed
  | depth + 1 => inside depth

/-- Requires that a container is closed. -/
def requireClosed {α : Type} (closed : Bool) (a : α) : Except Error α :=
  if closed then .ok a else .error .malformed

/-- The value of a field that may be given once. -/
def setOnce {α : Type} (field : String) (earlier : Option α) (value : Except Error α) :
    Except Error (Option α) :=
  if earlier.isSome then .error (.fault (.duplicateField field)) else value.map some

/-- The value of a field that has to be given. -/
def require {α : Type} (field : String) : Option α → Except Error α
  | some a => .ok a
  | none => .error (.fault (.missingField field))

/-- The value of a word. -/
def decodeWord {α : Type} [Vocabulary α] (s : String) : Except Error α :=
  match Vocabulary.ofName? s with
  | some a => .ok a
  | none => .error (.fault (.unknownVariant s (Vocabulary.names α)))

namespace Value

/-- What a value is, for a message. -/
def found : Value → Found
  | .null => .null
  | .bool b => .bool b
  | .number (.integer n) => .integer n
  | .number (.float x) => .float x
  | .string s => .string s
  | .array _ => .sequence
  | .object _ => .mapping

/-- The fault of a value that is not of the expected type. -/
def mismatch {α : Type} (expected : String) (v : Value) : Except Error α :=
  .error (.fault (.invalidType v.found expected))

/-- The text of a string. -/
def asString : Value → Except Error String
  | .string s => .ok s
  | v => v.mismatch "a string"

/-- The absent value, which an empty object may stand for. -/
def asUnit : Value → Except Error Unit
  | .null => .ok ()
  | .object [] => .ok ()
  | v => v.mismatch "unit"

/-- A word, or an object whose only member is the word with the absent value. -/
def asWord {α : Type} [Vocabulary α] : Value → Except Error α
  | .string s => decodeWord s
  | .object [(s, v)] => do
    let a ← decodeWord s
    v.asUnit
    return a
  | .object _ => .error (.fault (.invalidValue .mapping "map with a single key"))
  | v => v.mismatch "string or map"

end Value

namespace Source

/-- What an outline begins with, for a message. -/
def found : Source → Except Error Found
  | .null => .ok .null
  | .bool b => .ok (.bool b)
  | .numeral n =>
    match n.value? with
    | some (.integer n) => .ok (.integer n)
    | some (.float x) => .ok (.float x)
    | none => .error .malformed
  | .string (some s) => .ok (.string s)
  | .string none => .error .malformed
  | .array .. => .ok .sequence
  | .object .. => .ok .mapping
  | .broken => .error .malformed

/-- The fault of an outline that does not begin with the expected type. -/
def mismatch {α : Type} (expected : String) (s : Source) : Except Error α := do
  throw (.fault (.invalidType (← s.found) expected))

mutual

/-- The value of a complete outline. -/
def toValue (depth : Nat) : Source → Except Error Value
  | .null => .ok .null
  | .bool b => .ok (.bool b)
  | .numeral n =>
    match n.value? with
    | some n => .ok (.number n)
    | none => .error .malformed
  | .string (some s) => .ok (.string s)
  | .string none => .error .malformed
  | .array items closed =>
    match depth with
    | 0 => .error .malformed
    | depth + 1 => do
      let items ← itemValues depth items
      requireClosed closed (.array items)
  | .object members closed =>
    match depth with
    | 0 => .error .malformed
    | depth + 1 => do
      let members ← memberValues depth members
      requireClosed closed (.object members)
  | .broken => .error .malformed

/-- The values of items. -/
def itemValues (depth : Nat) : List Source → Except Error (List Value)
  | [] => .ok []
  | item :: rest => do
    let v ← toValue depth item
    let vs ← itemValues depth rest
    return v :: vs

/-- The names and values of members. -/
def memberValues (depth : Nat) :
    List (Option String × Source) → Except Error (List (String × Value))
  | [] => .ok []
  | (none, _) :: _ => .error .malformed
  | (some key, item) :: rest => do
    let v ← toValue depth item
    let vs ← memberValues depth rest
    return (key, v) :: vs

end

/-- The text of a string. -/
def asString : Source → Except Error String
  | .string (some s) => .ok s
  | s => s.mismatch "a string"

/-- A word by itself. -/
def asWord {α : Type} [Vocabulary α] : Source → Except Error α
  | .string (some s) => decodeWord s
  | s => s.mismatch "variant identifier"

/-- A natural number of 64 bits. -/
def asNatural : Source → Except Error Nat
  | .numeral n =>
    match n.value? with
    | some (.integer i) =>
      if 0 ≤ i then .ok i.toNat else .error (.fault (.invalidValue (.integer i) "u64"))
    | some (.float x) => .error (.fault (.invalidType (.float x) "u64"))
    | none => .error .malformed
  | s => s.mismatch "u64"

/-- The absent value, or one that decodes. -/
def asOptional {α : Type} (decode : Source → Except Error α) : Source → Except Error (Option α)
  | .null => .ok none
  | s => (decode s).map some

/-- A list whose items decode. -/
def asList {α : Type} (depth : Nat) (decode : Nat → Source → Except Error α) :
    Source → Except Error (List α)
  | .array items closed =>
    enter depth fun depth => do
      let values ← items.mapM (decode depth)
      requireClosed closed values
  | s => s.mismatch "a sequence"

/-- Goes through the members of an object in the order of the text. -/
def foldMembers {σ : Type} (step : σ → String → Source → Except Error σ) (start : σ)
    (members : List (Option String × Source)) (closed : Bool) : Except Error σ := do
  let last ← members.foldlM
    (fun state member =>
      match member.1 with
      | some key => step state key member.2
      | none => .error .malformed)
    start
  requireClosed closed last

/-- The next item of an array that is read in order, if there is one. -/
def nextItem (closed : Bool) : List Source → Except Error (Option (Source × List Source))
  | item :: rest => .ok (some (item, rest))
  | [] => requireClosed closed none

/-- Nothing may follow the last item that is asked for. -/
def requireEnd {α : Type} (closed : Bool) (rest : List Source) (a : α) : Except Error α :=
  requireClosed (closed && rest.isEmpty) a

/-- Decodes a whole text. -/
def decodeText {α : Type} (decode : Nat → Source → Except Error α) (s : String) :
    Except Error α := do
  let (source, complete) := ofText s
  let a ← decode nestingLimit source
  requireClosed complete a

end Source

end LibraryModels.Json
