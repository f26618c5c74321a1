import LibraryModels.ModelMap

/-!
# Data extensions

A data extension adds rows to the extensible predicates of a library pack. Models are written as
four blocks, one for each kind in order. In reading, the predicate decides the kind of a block's
rows; blocks of other predicates and rows that say nothing are passed over, with a warning for
each such block.
-/

namespace LibraryModels

/-- Rows that are added to one predicate of a pack. -/
structure Block where
  pack : String
  predicate : String
  rows : List (List Yaml.Value)

instance : Inhabited Block := ⟨"", "", []⟩

/-- A data extension document. -/
structure DataExtension where
  blocks : List Block := []

instance : Inhabited DataExtension := ⟨⟨[]⟩⟩

/-- The library pack of a language. -/
def languagePack (language : String) : String :=
  "codeql/" ++ language ++ "-all"

namespace DataExtension

/-- What is passed over in reading a document. -/
inductive Warning where
  | unsupportedPredicate (predicate : String)
  | droppedRows (dropped total : Nat) (kind : Kind)
deriving DecidableEq, Repr

/-- The words for some rows of a kind or predicate that could not be read. -/
def droppedText (dropped total : Nat) (rows : String) : String :=
  "Dropped " ++ Number.integerText dropped ++ " of " ++ Number.integerText total ++
    " unparseable " ++ rows ++ " rows"

/-- The words for a warning. -/
def Warning.text : Warning → String
  | .unsupportedPredicate predicate =>
    "Skipping data extension for unsupported predicate '" ++ predicate ++ "'"
  | .droppedRows dropped total kind => droppedText dropped total kind.predicate

end DataExtension

namespace Block

/-- The kind of models that the rows of a block describe, if its predicate is supported. -/
def kind? (b : Block) : Option Kind :=
  Kind.ofPredicate? b.predicate

/-- The entries that the rows of a block describe, in order. -/
def entries (b : Block) : List Entry :=
  match b.kind? with
  | some kind => b.rows.filterMap (Row.ofCells? kind)
  | none => []

/-- What is passed over in reading a block. -/
def warning? (b : Block) : Option DataExtension.Warning :=
  match b.kind? with
  | some kind =>
    let dropped := b.rows.length - b.entries.length
    if dropped = 0 then none else some (.droppedRows dropped b.rows.length kind)
  | none => some (.unsupportedPredicate b.predicate)

/-- The row of an entry in the block of a kind. -/
def row? (kind : Kind) (e : Entry) : Option (List Yaml.Value) :=
  match Row.toCells? e.1 e.2 with
  | some (k, cells) => if k = kind then some cells else none
  | none => none

/-- The block of one kind of models, in signature order. -/
def ofModels (language : String) (models : ModelMap) (kind : Kind) : Block where
  pack := languagePack language
  predicate := kind.predicate
  rows := models.toList.filterMap (row? kind)

end Block

namespace DataExtension

/-- The document of a map. -/
def ofModels (language : String) (models : ModelMap) : DataExtension where
  blocks := Kind.all.map (Block.ofModels language models)

/-- The entries that a document describes, in order. -/
def entries (d : DataExtension) : List Entry :=
  d.blocks.flatMap Block.entries

/-- The map that a document describes; of several rows for one signature the last wins. -/
def toModels (d : DataExtension) : ModelMap :=
  ModelMap.ofList d.entries

/-- What is passed over in reading a document, in order. -/
def warnings (d : DataExtension) : List Warning :=
  d.blocks.filterMap Block.warning?

end DataExtension

end LibraryModels
