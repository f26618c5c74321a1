import LibraryModels.Json.Decode
import LibraryModels.Results
import LibraryModels.Text.Bytes

/-!
# Query results as JSON

Result descriptions and tables are objects; a list with the same values in order is taken too, and
members that have a default may be left out at its end. Members that are not asked for are passed
over. A cell is classified by its JSON type, where objects and lists are entities, and one cell
that fits nothing spoils the table.
-/

namespace LibraryModels

open Json (Error Source Value)

namespace Column

/-- The object of a column; an absent name is left out. -/
def toJson (c : Column) : Value :=
  .object ((c.name.toList.map fun s => ("name", .string s)) ++ [("kind", .string c.kind)])

/-- Reads a column. -/
def ofSource (depth : Nat) : Source → Except Error Column
  | .object members closed =>
    Json.enter depth fun _ => do
      let (name, kind) ← Source.foldMembers
        (fun (name, kind) key item =>
          match key with
          | "name" => do
            return (← Json.setOnce key name (item.asOptional Source.asString), kind)
          | "kind" => do
            return (name, ← Json.setOnce key kind item.asString)
          | _ => .ok (name, kind))
        ((none : Option (Option String)), (none : Option String)) members closed
      return ⟨name.getD none, ← Json.require "kind" kind⟩
  | .array items closed =>
    Json.enter depth fun _ => do
      match ← Source.nextItem closed items with
      | none => .error (.fault (.invalidLength 0 "struct ColumnSchema with 2 elements"))
      | some (item, items) =>
        let name ← item.asOptional Source.asString
        match ← Source.nextItem closed items with
        | none => .error (.fault (.invalidLength 1 "struct ColumnSchema with 2 elements"))
        | some (item, items) =>
          let kind ← item.asString
          Source.requireEnd closed items ⟨name, kind⟩
  | s => s.mismatch "struct ColumnSchema"

end Column

namespace ResultSet

/-- The object of a result set. -/
def toJson (r : ResultSet) : Value :=
  .object
    [("name", .string r.name), ("rows", .number (.integer r.rows)),
      ("columns", .array (r.columns.map Column.toJson))]

/-- Reads the columns of a result set. -/
def columnsOfSource (depth : Nat) (s : Source) : Except Error (List Column) :=
  s.asList depth Column.ofSource

/-- Reads a result set. -/
def ofSource (depth : Nat) : Source → Except Error ResultSet
  | .object members closed =>
    Json.enter depth fun depth => do
      let (name, rows, columns) ← Source.foldMembers
        (fun (name, rows, columns) key item =>
          match key with
          | "name" => do
            return (← Json.setOnce key name item.asString, rows, columns)
          | "rows" => do
            return (name, ← Json.setOnce key rows item.asNatural, columns)
          | "columns" => do
            return (name, rows, ← Json.setOnce key columns (columnsOfSource depth item))
          | _ => .ok (name, rows, columns))
        ((none : Option String), (none : Option Nat), (none : Option (List Column))) members closed
      return ⟨← Json.require "name" name, ← Json.require "rows" rows, columns.getD []⟩
  | .array items closed =>
    Json.enter depth fun depth => do
      match ← Source.nextItem closed items with
      | none => .error (.fault (.invalidLength 0 "struct ResultSetInfo with 3 elements"))
      | some (item, items) =>
        let name ← item.asString
        match ← Source.nextItem closed items with
        | none => .error (.fault (.invalidLength 1 "struct ResultSetInfo with 3 elements"))
        | some (item, items) =>
          let rows ← item.asNatural
          match ← Source.nextItem closed items with
          | none => return ⟨name, rows, []⟩
          | some (item, items) =>
            let columns ← columnsOfSource depth item
            Source.requireEnd closed items ⟨name, rows, columns⟩
  | s => s.mismatch "struct ResultSetInfo"

end ResultSet

namespace ResultsInfo

/-- The object of a results description. -/
def toJson (r : ResultsInfo) : Value :=
  .object [("result-sets", .array (r.resultSets.map ResultSet.toJson))]

/-- Reads a results description. -/
def ofSource (depth : Nat) : Source → Except Error ResultsInfo
  | .object members closed =>
    Json.enter depth fun depth => do
      let sets ← Source.foldMembers
        (fun sets key item =>
          if key = "result-sets" then
            Json.setOnce key sets (item.asList depth ResultSet.ofSource)
          else .ok sets)
        (none : Option (List ResultSet)) members closed
      return ⟨sets.getD []⟩
  | .array items closed =>
    Json.enter depth fun depth => do
      match ← Source.nextItem closed items with
      | none => return ⟨[]⟩
      | some (item, items) =>
        let sets ← item.asList depth ResultSet.ofSource
        Source.requireEnd closed items ⟨sets⟩
  | s => s.mismatch "struct BqrsInfo"

/-- Reads a results description from a JSON text. -/
def ofJsonText (s : String) : Except Error ResultsInfo :=
  Source.decodeText ofSource s

end ResultsInfo

/-- Whether a name comes before another one, by bytes. -/
def nameBefore (a b : String) : Bool :=
  compare (Text.bytes a) (Text.bytes b) == .lt

/-- Sets a member of an object whose members are in order of their names. -/
def setMember (key : String) (v : Value) : List (String × Value) → List (String × Value)
  | [] => [(key, v)]
  | (k, w) :: rest =>
    if key = k then (key, v) :: rest
    else if nameBefore key k then (key, v) :: (k, w) :: rest
    else (k, w) :: setMember key v rest

mutual

/-- The value with the members of every object in order of their names, the last of each name. -/
def orderedMembers : Value → Value
  | .array items => .array (orderedItems items)
  | .object members => .object (orderedObject members [])
  | v => v

/-- The items of an array, each in order. -/
def orderedItems : List Value → List Value
  | [] => []
  | v :: rest => orderedMembers v :: orderedItems rest

/-- The members of an object set one after the other. -/
def orderedObject : List (String × Value) → List (String × Value) → List (String × Value)
  | [], done => done
  | (key, v) :: rest, done => orderedObject rest (setMember key (orderedMembers v) done)

end

namespace Entity

/-- The object of an entity; absent parts are left out. -/
def toJson (e : Entity) : Value :=
  .object
    ((e.label.toList.map fun s => ("label", .string s)) ++
      (e.id.toList.map fun n => ("id", .number (.integer n))) ++
      (e.url.toList.map fun v => ("url", v)))

/-- A label is a text or absent. -/
def label? : Value → Option (Option String)
  | .null => some none
  | .string s => some (some s)
  | _ => none

/-- An identifier is a signed 64-bit integer or absent. -/
def id? : Value → Option (Option Int)
  | .null => some none
  | .number (.integer n) =>
    if Number.minInteger ≤ n ∧ n ≤ Number.maxSigned then some (some n) else none
  | _ => none

/-- A location is any value. -/
def location (v : Value) : Option Value :=
  match v with
  | .null => none
  | v => some (orderedMembers v)

/-- Reads an entity from the members of an object; each part may be given once. -/
def ofMembers? (members : List (String × Value)) : Option Entity := do
  let (label, id, place) ← members.foldlM
    (fun (label, id, place) (key, v) =>
      match key with
      | "label" => do
        guard label.isNone
        return (some (← label? v), id, place)
      | "id" => do
        guard id.isNone
        return (label, some (← id? v), place)
      | "url" => do
        guard place.isNone
        return (label, id, some (location v))
      | _ => some (label, id, place))
    ((none : Option (Option String)), (none : Option (Option Int)),
      (none : Option (Option Value)))
  return ⟨label.getD none, id.getD none, place.getD none⟩

/-- Reads an entity from a list of at most three parts in order. -/
def ofItems? : List Value → Option Entity
  | [] => some ⟨none, none, none⟩
  | [a] => do return ⟨← label? a, none, none⟩
  | [a, b] => do return ⟨← label? a, ← id? b, none⟩
  | [a, b, c] => do return ⟨← label? a, ← id? b, location c⟩
  | _ => none

end Entity

namespace Cell

/-- The JSON value of a cell. -/
def toJson : Cell → Value
  | .text s => .string s
  | .boolean b => .bool b
  | .number n => .number n
  | .entity e => e.toJson

/-- The cell that a value stands for. -/
def ofValue? : Value → Option Cell
  | .string s => some (.text s)
  | .bool b => some (.boolean b)
  | .number n => some (.number n)
  | .object members => (Entity.ofMembers? members).map .entity
  | .array items => (Entity.ofItems? items).map .entity
  | .null => none

/-- Reads a cell. -/
def ofSource (depth : Nat) (s : Source) : Except Error Cell := do
  match ofValue? (← s.toValue depth) with
  | some cell => return cell
  | none => throw (.fault (.noAlternative "CellValue"))

end Cell

namespace Table

/-- The object of a table. -/
def toJson (t : Table) : Value :=
  .object
    [("columns", .array (t.columns.map Column.toJson)),
      ("tuples", .array (t.tuples.map fun tuple => .array (tuple.map Cell.toJson)))]

/-- Reads the tuples of a table. -/
def tuplesOfSource (depth : Nat) (s : Source) : Except Error (List (List Cell)) :=
  s.asList depth fun depth tuple => tuple.asList depth Cell.ofSource

/-- Reads a table. -/
def ofSource (depth : Nat) : Source → Except Error Table
  | .object members closed =>
    Json.enter depth fun depth => do
      let (columns, tuples) ← Source.foldMembers
        (fun (columns, tuples) key item =>
          match key with
          | "columns" => do
            return (← Json.setOnce key columns (ResultSet.columnsOfSource depth item), tuples)
          | "tuples" => do
            return (columns, ← Json.setOnce key tuples (tuplesOfSource depth item))
          | _ => .ok (columns, tuples))
        ((none : Option (List Column)), (none : Option (List (List Cell)))) members closed
      return ⟨columns.getD [], tuples.getD []⟩
  | .array items closed =>
    Json.enter depth fun depth => do
      match ← Source.nextItem closed items with
      | none => return ⟨[], []⟩
      | some (item, items) =>
        let columns ← ResultSet.columnsOfSource depth item
        match ← Source.nextItem closed items with
        | none => return ⟨columns, []⟩
        | some (item, items) =>
          let tuples ← tuplesOfSource depth item
          Source.requireEnd closed items ⟨columns, tuples⟩
  | s => s.mismatch "struct DecodedResultSet"

/-- Reads a table from a JSON text. -/
def ofJsonText (s : String) : Except Error Table :=
  Source.decodeText ofSource s

end Table

end LibraryModels
