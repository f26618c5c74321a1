import LibraryModels.Method
import LibraryModels.Signature
import LibraryModels.Yaml.Value

/-!
# Rows

A row lists the columns of one model. Queries give rows as texts with `;` between columns;
documents give them as lists of scalars. The columns are, by kind:

* summary: package, type, subtypes, name, parameters, ext, input, output, kind, provenance
* sink: package, type, subtypes, name, parameters, ext, input, kind, provenance
* source: package, type, subtypes, name, parameters, ext, output, kind, provenance
* neutral: package, type, name, parameters, provenance

Subtypes and ext are no part of a model, so every row is written with the same two. Queries never
give a blank input, output or kind; documents may.
-/

namespace LibraryModels

/-- A model and the callable that it is about. -/
abbrev Entry := Signature × Method

/-- Whether a reader takes a blank input, output or kind. -/
inductive Blanks where
  | refused
  | kept
deriving DecidableEq, Repr

namespace Row

/-- A column that may be blank only where blanks are kept. -/
def column (blanks : Blanks) (s : String) : Option String :=
  if blanks = .refused ∧ s = "" then none else some s

/-- The subtypes column is a boolean word. -/
def subtypes? : String → Option Bool
  | "true" => some true
  | "false" => some false
  | _ => none

/-- The entry that the columns of one row describe. -/
def read (blanks : Blanks) : Kind → List String → Option Entry
  | .summary,
      [package, typeName, subtypes, name, parameters, _, input, output, kind, provenance] => do
    let _ ← subtypes? subtypes
    let input ← column blanks input
    let output ← column blanks output
    let kind ← Vocabulary.ofName? kind
    let provenance ← Vocabulary.ofName? provenance
    let signature ← Signature.ofParts? package typeName name parameters
    return (signature, .summary input output kind provenance)
  | .sink, [package, typeName, subtypes, name, parameters, _, input, kind, provenance] => do
    let _ ← subtypes? subtypes
    let input ← column blanks input
    let kind ← column blanks kind
    let provenance ← Vocabulary.ofName? provenance
    let signature ← Signature.ofParts? package typeName name parameters
    return (signature, .sink input kind provenance)
  | .source, [package, typeName, subtypes, name, parameters, _, output, kind, provenance] => do
    let _ ← subtypes? subtypes
    let output ← column blanks output
    let kind ← column blanks kind
    let provenance ← Vocabulary.ofName? provenance
    let signature ← Signature.ofParts? package typeName name parameters
    return (signature, .source output kind provenance)
  | .neutral, [package, typeName, name, parameters, provenance] => do
    let provenance ← Vocabulary.ofName? provenance
    let signature ← Signature.ofParts? package typeName name parameters
    return (signature, .neutral provenance)
  | _, _ => none

/-- Reads the columns of a query's row, where no blanks are expected. -/
def ofColumns? (kind : Kind) (columns : List String) : Option Entry :=
  read .refused kind columns

/-- The columns of a text with `;` between them. -/
def columnsOfTuple (raw : String) : List String :=
  (Text.pieces ';' raw.toList).map String.ofList

/-- Reads a query's row from one text. -/
def ofTuple? (kind : Kind) (raw : String) : Option Entry :=
  ofColumns? kind (columnsOfTuple raw)

/-- Reads a document's row; every cell has to be a scalar, and blanks are kept. -/
def ofCells? (kind : Kind) (cells : List Yaml.Value) : Option Entry := do
  let columns ← cells.mapM Yaml.Value.scalarText?
  read .kept kind columns

/-- The first six columns of the kinds that have them. -/
def head (signature : Signature) : List Yaml.Value :=
  [.string signature.package, .string signature.typeName, .bool true, .string signature.name,
    .string signature.parameters, .string ""]

/-- The row of an entry and its kind; `unmodeled` has no row. -/
def toCells? (signature : Signature) : Method → Option (Kind × List Yaml.Value)
  | .summary input output kind provenance =>
    some (.summary, head signature ++
      [.string input, .string output, .string (Vocabulary.name kind),
        .string (Vocabulary.name provenance)])
  | .sink input kind provenance =>
    some (.sink, head signature ++
      [.string input, .string kind, .string (Vocabulary.name provenance)])
  | .source output kind provenance =>
    some (.source, head signature ++
      [.string output, .string kind, .string (Vocabulary.name provenance)])
  | .neutral provenance =>
    some (.neutral,
      [.string signature.package, .string signature.typeName, .string signature.name,
        .string signature.parameters, .string (Vocabulary.name provenance)])
  | .unmodeled => none

end Row

end LibraryModels
