import LibraryModels.Json.Value

/-!
# Query results

What a query leaves behind: a description of its result sets, and for each set a table of cells. A
cell holds a text, a boolean, a number, or an entity of the database with a label, an identifier
and a location.
-/

namespace LibraryModels

/-- A column of a result set. -/
structure Column where
  name : Option String
  /-- The code of what the column holds, such as `s` for text. -/
  kind : String
deriving DecidableEq, Repr

/-- The description of one result set. -/
structure ResultSet where
  name : String
  rows : Nat
  columns : List Column
deriving DecidableEq, Repr

/-- The description of everything a query left behind. -/
structure ResultsInfo where
  resultSets : List ResultSet
deriving DecidableEq, Repr

/-- An entity of the database. -/
structure Entity where
  label : Option String
  id : Option Int
  /-- Where the entity stands; the members of an object are in order of their names. -/
  url : Option Json.Value

/-- One cell of a tuple. -/
inductive Cell where
  | text (s : String)
  | boolean (b : Bool)
  | number (n : Number)
  | entity (e : Entity)

/-- The tuples of one result set. -/
structure Table where
  columns : List Column
  tuples : List (List Cell)

/-- The text of a cell; only a text cell has one. -/
def Cell.text? : Cell → Option String
  | .text s => some s
  | _ => none

end LibraryModels
