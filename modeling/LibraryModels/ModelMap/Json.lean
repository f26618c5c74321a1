import LibraryModels.Json.Decode
import LibraryModels.ModelMap

/-!
# Models as JSON

A model is an object whose `type` says which other members it has; a list with the same values in
order is taken too. A map is an object from canonical signatures to models.
-/

namespace LibraryModels

open Json (Error Source Value)

namespace Signature

/-- A signature is written as its canonical text. -/
def toJson (g : Signature) : Value :=
  .string g.text

/-- Reads the text of a signature. -/
def decodeText (s : String) : Except Error Signature :=
  match ofText? s with
  | some g => .ok g
  | none => .error (.fault (.notASignature s))

/-- Reads a signature. -/
def ofSource (_ : Nat) (s : Source) : Except Error Signature := do
  decodeText (← s.asString)

end Signature

namespace Method

/-- A word of a vocabulary. -/
def wordJson {α : Type} [Vocabulary α] (a : α) : Value :=
  .string (Vocabulary.name a)

/-- The object of a model. -/
def toJson (m : Method) : Value :=
  .object (("type", wordJson m.type) ::
    match m with
    | .summary input output kind provenance =>
      [("input", .string input), ("output", .string output), ("kind", wordJson kind),
        ("provenance", wordJson provenance)]
    | .sink input kind provenance =>
      [("input", .string input), ("kind", .string kind), ("provenance", wordJson provenance)]
    | .source output kind provenance =>
      [("output", .string output), ("kind", .string kind), ("provenance", wordJson provenance)]
    | .neutral provenance => [("provenance", wordJson provenance)]
    | .unmodeled => [])

/-- The members of a model that have been read so far. -/
structure Draft where
  input : Option String := none
  output : Option String := none
  label : Option String := none
  summaryKind : Option SummaryKind := none
  provenance : Option Provenance := none

namespace Draft

/-- The members of each kind of model, in order. -/
def fields : Kind → List String
  | .summary => ["input", "output", "kind", "provenance"]
  | .sink => ["input", "kind", "provenance"]
  | .source => ["output", "kind", "provenance"]
  | .neutral => ["provenance"]

/-- Takes one member; others than the kind's are passed over. -/
def add (kind : Kind) (draft : Draft) (field : String) (v : Value) : Except Error Draft :=
  if field ∉ fields kind then .ok draft
  else
    match field with
    | "input" => do
      return { draft with input := ← Json.setOnce field draft.input v.asString }
    | "output" => do
      return { draft with output := ← Json.setOnce field draft.output v.asString }
    | "kind" =>
      match kind with
      | .summary => do
        return { draft with summaryKind := ← Json.setOnce field draft.summaryKind v.asWord }
      | _ => do
        return { draft with label := ← Json.setOnce field draft.label v.asString }
    | "provenance" => do
      return { draft with provenance := ← Json.setOnce field draft.provenance v.asWord }
    | _ => .ok draft

/-- The model of a complete draft. -/
def finish (kind : Kind) (draft : Draft) : Except Error Method :=
  match kind with
  | .summary => do
    return .summary (← Json.require "input" draft.input) (← Json.require "output" draft.output)
      (← Json.require "kind" draft.summaryKind) (← Json.require "provenance" draft.provenance)
  | .sink => do
    return .sink (← Json.require "input" draft.input) (← Json.require "kind" draft.label)
      (← Json.require "provenance" draft.provenance)
  | .source => do
    return .source (← Json.require "output" draft.output) (← Json.require "kind" draft.label)
      (← Json.require "provenance" draft.provenance)
  | .neutral => do
    return .neutral (← Json.require "provenance" draft.provenance)

/-- The name of a kind of model in messages, with its number of members. -/
def expected (kind : Kind) : String :=
  let name :=
    match kind with
    | .summary => "Summary"
    | .sink => "Sink"
    | .source => "Source"
    | .neutral => "Neutral"
  "struct variant ModeledMethod::" ++ name ++ " with " ++ countOf (fields kind).length

/-- Takes the members in order from a list; `done` of them have been read before. -/
def addInOrder (kind : Kind) (draft : Draft) (done : Nat) :
    List String → List Value → Except Error Draft
  | [], [] => .ok draft
  | [], rest =>
    .error (.fault (.invalidLength (done + rest.length) (countOf done ++ " in sequence")))
  | _ :: _, [] => .error (.fault (.invalidLength done (expected kind)))
  | field :: fields, v :: rest => do
    let draft ← draft.add kind field v
    addInOrder kind draft (done + 1) fields rest

end Draft

/-- The model of a type from named members. -/
def ofMembers (type : MethodType) (members : List (String × Value)) : Except Error Method :=
  match type with
  | .unmodeled => .ok .unmodeled
  | .model kind => do
    let draft ← members.foldlM (fun draft member => draft.add kind member.1 member.2) ({} : Draft)
    draft.finish kind

/-- The model of a type from a list of members. -/
def ofItems (type : MethodType) (items : List Value) : Except Error Method :=
  match type, items with
  | .unmodeled, [] => .ok .unmodeled
  | .unmodeled, items =>
    .error (.fault (.invalidLength items.length (countOf 0 ++ " in sequence")))
  | .model kind, items => do
    let draft ← ({} : Draft).addInOrder kind 0 (Draft.fields kind) items
    draft.finish kind

/--
Reads a model. The type is looked at when it is met; the other members wait until all are read.
-/
def ofSource (depth : Nat) : Source → Except Error Method
  | .object members closed =>
    Json.enter depth fun depth => do
      let (type, others) ← Source.foldMembers
        (fun (type, others) key item =>
          if key = "type" then do
            return (← Json.setOnce key type item.asWord, others)
          else do
            return (type, others ++ [(key, ← item.toValue depth)]))
        ((none : Option MethodType), ([] : List (String × Value))) members closed
      ofMembers (← Json.require "type" type) others
  | .array items closed =>
    Json.enter depth fun depth => do
      match ← Source.nextItem closed items with
      | none => .error (.fault (.missingField "type"))
      | some (item, rest) =>
        let type ← item.asWord
        let values ← Source.itemValues depth rest
        ofItems type (← Json.requireClosed closed values)
  | s => s.mismatch "internally tagged enum ModeledMethod"

end Method

namespace ModelMap

/-- The object of a map, in signature order. -/
def toJson (m : ModelMap) : Value :=
  .object (m.entries.map fun e => (e.1.text, e.2.toJson))

/-- Reads a map; of several members for one signature the last one wins. -/
def ofSource (depth : Nat) : Source → Except Error ModelMap
  | .object members closed =>
    Json.enter depth fun depth =>
      Source.foldMembers
        (fun m key item => do
          let g ← Signature.decodeText key
          let method ← Method.ofSource depth item
          return m.insert g method)
        ModelMap.empty members closed
  | s => s.mismatch "a map"

/-- The JSON text of a map. -/
def jsonText (m : ModelMap) : String :=
  m.toJson.text

/-- Reads a map from a JSON text. -/
def ofJsonText (s : String) : Except Error ModelMap :=
  Source.decodeText ofSource s

end ModelMap

end LibraryModels
