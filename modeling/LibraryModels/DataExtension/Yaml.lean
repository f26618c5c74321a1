import LibraryModels.DataExtension
import LibraryModels.Yaml.Decode
import LibraryModels.Yaml.Print.Document

/-!
# Data extensions as YAML

A document is a mapping with a list of blocks; a block names the pack and the predicate that its
rows add to. Lists may be left out, other keys are passed over.
-/

namespace LibraryModels

open Yaml (Decoder Document Error Node Path Value)

namespace Block

/-- The pack and the predicate that rows add to. -/
abbrev Target := String × String

/-- The mapping of a pack and a predicate. -/
def targetYaml (t : Target) : Value :=
  .mapping [(.string "pack", .string t.1), (.string "extensible", .string t.2)]

/-- Reads a pack and a predicate. -/
def targetOfNode (d : Document) (depth : Nat) (path : Path) (node : Node Nat) : Decoder Target := do
  let (pack, predicate) ← d.fields depth path "struct AddsTo"
    (fun _ (pack, predicate) key place item =>
      match key with
      | "pack" => do
        return (← Yaml.setOnce path key pack (d.string "a string" place item), predicate)
      | "extensible" => do
        return (pack, ← Yaml.setOnce path key predicate (d.string "a string" place item))
      | _ => return (pack, predicate))
    ((none : Option String), (none : Option String)) node
  return (← Yaml.require path "pack" pack, ← Yaml.require path "extensible" predicate)

/-- The mapping of a block. -/
def toYaml (b : Block) : Value :=
  .mapping
    [(.string "addsTo", targetYaml (b.pack, b.predicate)),
      (.string "data", .sequence (b.rows.map .sequence))]

/-- Reads the rows of a block. -/
def rowsOfNode (d : Document) (depth : Nat) (path : Path) (node : Node Nat) :
    Decoder (List (List Value)) :=
  d.list depth path
    (fun depth path row => d.list depth path (fun depth _ cell => d.value depth cell) row) node

/-- Reads a block. -/
def ofNode (d : Document) (depth : Nat) (path : Path) (node : Node Nat) : Decoder Block := do
  let (target, rows) ← d.fields depth path "struct DataExtension"
    (fun depth (target, rows) key place item =>
      match key with
      | "addsTo" => do
        return (← Yaml.setOnce path key target (targetOfNode d depth place item), rows)
      | "data" => do
        return (target, ← Yaml.setOnce path key rows (rowsOfNode d depth place item))
      | _ => return (target, rows))
    ((none : Option Target), (none : Option (List (List Value)))) node
  let (pack, predicate) ← Yaml.require path "addsTo" target
  return ⟨pack, predicate, rows.getD []⟩

end Block

namespace DataExtension

/-- The entries of the mapping that a document is. -/
def toYaml (d : DataExtension) : List (Value × Value) :=
  [(.string "extensions", .sequence (d.blocks.map Block.toYaml))]

/-- The text of a document. -/
def yamlText (d : DataExtension) : String :=
  Yaml.Print.documentText d.toYaml

/-- Reads the root of a document. -/
def ofNode (d : Document) (depth : Nat) (path : Path) (node : Node Nat) :
    Decoder DataExtension := do
  let blocks ← d.fields depth path "struct DataExtensionFile"
    (fun depth blocks key place item =>
      if key = "extensions" then
        Yaml.setOnce path key blocks (d.list depth place (Block.ofNode d) item)
      else return blocks)
    (none : Option (List Block)) node
  return ⟨blocks.getD []⟩

/-- Reads a document from a text. -/
def ofYamlText (s : String) : Except Error DataExtension :=
  Yaml.decodeText ofNode s

end DataExtension

end LibraryModels
