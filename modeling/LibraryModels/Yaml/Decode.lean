import LibraryModels.Decode.Fault
import LibraryModels.Yaml.Document
import LibraryModels.Yaml.Scalar

/-!
# Decoding YAML

A decoder goes through a document from its root. Aliases are followed where a value is asked for,
and only so often; collections may be nested 128 deep. A mistake is reported with the place where
it was made, but only if the document as a whole has a value: every scalar that is forced to a
type has that type and no key is repeated.
-/

namespace LibraryModels.Yaml

/-- A step from a collection to a part of it. -/
inductive Step where
  | item (index : Nat)
  | field (name : String)
  /-- The value of a key that is no scalar. -/
  | unnamed
deriving DecidableEq, Repr

/-- The steps from the root of a document, the last first. -/
abbrev Path := List Step

namespace Path

/-- The text of a path and a dot after it, unless it is the root. -/
def joined (text : String) (rest : Path) : String :=
  if rest.isEmpty then "" else text ++ "."

/-- The text of a path; the root is a dot. -/
def text : Path → String
  | [] => "."
  | .item index :: rest => text rest ++ "[" ++ Number.integerText index ++ "]"
  | .field name :: rest => joined (text rest) rest ++ name
  | .unnamed :: rest => joined (text rest) rest ++ "?"

end Path

/-- Why a YAML text does not decode. -/
inductive Error where
  /-- The text is no document, or the document has no value. -/
  | unreadable
  | fault (path : Path) (f : Fault)
deriving DecidableEq, Repr

/-- The words that YAML has of its own in messages. -/
def wording : Wording where
  null := "unit value"
  float := Decimal.Double.plainText

/-- The message of an error; an unreadable text has none. -/
def Error.message? : Error → Option String
  | .unreadable => none
  | .fault [] f => some (f.text wording)
  | .fault path f => some (path.text ++ ": " ++ f.text wording)

/-- A reader of parts of a document that counts how many aliases it may still follow. -/
abbrev Decoder (α : Type) := StateT Nat (Except Error) α

/-- How deep collections may be nested. -/
def nestingLimit : Nat := 128

/-- Stops with a fault at a place. -/
def faultAt {α : Type} (path : Path) (f : Fault) : Decoder α :=
  throw (.fault path f)

/-- Stops because the document has no value. -/
def unreadable {α : Type} : Decoder α :=
  throw .unreadable

/-- The result of a step that may fail for want of a value. -/
def readable {α : Type} : Option α → Decoder α
  | some a => pure a
  | none => unreadable

/-- A node that is no alias, without its label. -/
inductive Content where
  | scalar (tag : Option String) (text : String) (style : Style)
  | sequence (tag : Option String) (items : List (Node Nat))
  | mapping (tag : Option String) (entries : List (Node Nat × Node Nat))

/-- What a node holds, unless it is an alias. -/
def Node.content? : Node Nat → Option Content
  | .alias _ => none
  | .scalar p text style => some (.scalar p.tag text style)
  | .sequence p items => some (.sequence p.tag items)
  | .mapping p entries => some (.mapping p.tag entries)

/-- What a node of a document holds; an alias is followed. -/
def Document.content (d : Document) : Node Nat → Decoder Content
  | .alias number => do
    match ← get with
    | 0 => unreadable
    | left + 1 => do
      set left
      readable (d.target? number >>= Node.content?)
  | node => readable node.content?

/-- Goes into a collection, unless the nesting is used up. -/
def enter {α : Type} (depth : Nat) (inside : Nat → Decoder α) : Decoder α :=
  match depth with
  | 0 => unreadable
  | depth + 1 => inside depth

namespace Content

/-- The tag of a node. -/
def tag : Content → Option String
  | .scalar tag .. => tag
  | .sequence tag _ => tag
  | .mapping tag _ => tag

/-- What stands at a place, for a message. -/
def found? : Content → Option Found
  | .scalar tag text style =>
    match scalarValue? tag text style with
    | some .null => some .null
    | some (.bool b) => some (.bool b)
    | some (.number (.integer n)) => some (.integer n)
    | some (.number (.float x)) => some (.float x)
    | some (.string s) => some (.string s)
    | _ => none
  | .sequence .. => some .sequence
  | .mapping .. => some .mapping

/-- The fault of a node that is not of the expected type. -/
def mismatch {α : Type} (path : Path) (expected : String) (c : Content) : Decoder α := do
  faultAt path (.invalidType (← readable c.found?) expected)

/-- Whether a plain scalar without text stands where a collection is asked for. -/
def isBlank : Content → Bool
  | .scalar _ text style => text = "" ∧ style = .plain
  | _ => false

end Content

/-- A value under its own tag, if it has one. -/
def underTag (tag : Option String) (v : Value) : Value :=
  match tag >>= ownTag? with
  | some name => .tagged name v
  | none => v

/-- Adds an entry to a mapping, where no key may be repeated. -/
def addEntry (done : List (Value × Value)) (k : Value) (v : Decoder Value) :
    Decoder (List (Value × Value)) := do
  if done.any fun e => e.1.same k then unreadable
  else return done ++ [(k, ← v)]

namespace Document

/-- The value of a node. -/
def value (d : Document) (depth : Nat) (node : Node Nat) : Decoder Value := do
  match ← d.content node with
  | .scalar tag text style => return underTag tag (← readable (scalarValue? tag text style))
  | .sequence tag items =>
    match depth with
    | 0 => unreadable
    | depth + 1 => return underTag tag (.sequence (← items.mapM (value d depth)))
  | .mapping tag entries =>
    match depth with
    | 0 => unreadable
    | depth + 1 =>
      let entries ← entries.foldlM
        (fun done e => do addEntry done (← value d depth e.1) (value d depth e.2)) []
      return underTag tag (.mapping entries)

/-- The text of a scalar of any type and style. -/
def string (d : Document) (expected : String) (path : Path) (node : Node Nat) : Decoder String := do
  match ← d.content node with
  | .scalar _ text _ => return text
  | c => c.mismatch path expected

/-- The items of a sequence, decoded one by one. -/
def list {α : Type} (d : Document) (depth : Nat) (path : Path)
    (item : Nat → Path → Node Nat → Decoder α) (node : Node Nat) : Decoder (List α) := do
  let c ← d.content node
  match c with
  | .sequence _ items =>
    enter depth fun depth =>
      items.zipIdx.mapM fun (node, index) => item depth (.item index :: path) node
  | c => if c.isBlank then return [] else c.mismatch path "a sequence"

/-- The step to the value of a key. -/
def stepOf : Node Nat → Step
  | .scalar _ text _ => .field text
  | _ => .unnamed

/--
The fields of a mapping, taken one by one in the order of the document. A step gets the name of
the field, the place of its value, and the value.
-/
def fields {σ : Type} (d : Document) (depth : Nat) (path : Path) (expected : String)
    (step : Nat → σ → String → Path → Node Nat → Decoder σ) (start : σ) (node : Node Nat) :
    Decoder σ := do
  let c ← d.content node
  match c with
  | .mapping _ entries =>
    enter depth fun depth =>
      entries.foldlM
        (fun state (key, item) => do
          let name ← d.string "field identifier" path key
          step depth state name (stepOf key :: path) item)
        start
  | c => if c.isBlank then return start else c.mismatch path expected

/-- Whether a node is left out or says that a value is absent. -/
def isAbsent : Content → Decoder Bool
  | .scalar tag text style =>
    if style ≠ .plain then return false
    else
      match tag with
      | none => return text = "" || isNullWord text
      | some tag =>
        if coreTag? tag = some .null then
          if isNullWord text then return true else unreadable
        else return false
  | _ => return false

/-- A value that may be absent. -/
def optional {α : Type} (d : Document) (decode : Node Nat → Decoder α) (node : Node Nat) :
    Decoder (Option α) := do
  let before ← get
  if ← isAbsent (← d.content node) then return none
  else do
    set before
    return some (← decode node)

/-- Whether a scalar may spell a number: plain, or a literal block that is tagged as an integer. -/
def maySpellNumber (tag : Option String) (style : Style) : Bool :=
  style = .plain || style = .literal && tag.bind coreTag? = some .int

/-- A natural number of 32 bits. -/
def natural (d : Document) (path : Path) (node : Node Nat) : Decoder Nat := do
  let c ← d.content node
  match c with
  | .scalar tag text style =>
    match if maySpellNumber tag style then Scalar.unsigned? text else none with
    | some n =>
      if n < Nat.pow 2 32 then return n else faultAt path (.invalidValue (.integer n) "u32")
    | none => c.mismatch path "u32"
  | c => c.mismatch path "u32"

/-- Decodes the root of a document; a fault counts only if the document has a value. -/
def decode {α : Type} (d : Document) (decoder : Nat → Path → Node Nat → Decoder α) :
    Except Error α :=
  match (decoder nestingLimit [] d.root).run d.aliasLimit with
  | .ok (a, _) => .ok a
  | .error e =>
    match (d.value nestingLimit d.root).run d.aliasLimit with
    | .ok _ => .error e
    | .error _ => .error .unreadable

end Document

/-- The value of a field that may be given once. -/
def setOnce {α : Type} (path : Path) (field : String) (earlier : Option α) (value : Decoder α) :
    Decoder (Option α) :=
  if earlier.isSome then faultAt path (.duplicateField field) else some <$> value

/-- The value of a field that has to be given. -/
def require {α : Type} (path : Path) (field : String) : Option α → Decoder α
  | some a => return a
  | none => faultAt path (.missingField field)

/-- Decodes a text. -/
def decodeText {α : Type} (decoder : Document → Nat → Path → Node Nat → Decoder α) (s : String) :
    Except Error α :=
  match Document.ofText? s with
  | some d => d.decode (decoder d)
  | none => .error .unreadable

end LibraryModels.Yaml
