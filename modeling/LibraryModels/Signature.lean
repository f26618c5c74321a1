import LibraryModels.Text.Bytes
import LibraryModels.Text.Split

/-!
# Method signatures

The identity of one callable: package, type, member name and parameter list. The canonical text is
`package.Type#name(parameters)`. The characters `# ; ( )` are reserved outside the parameter list,
which is what lets the canonical text, and a row of columns that holds the four parts, be taken
apart again. Signatures are ordered part by part, each part by its bytes.
-/

namespace LibraryModels

open Text (bytes splitFirst splitLast)

namespace Signature

/-- The characters that no part but the parameter list may hold. -/
def reserved : List Char := ['#', ';', '(', ')']

/-- No reserved character occurs. -/
def Plain (s : String) : Prop :=
  ∀ c ∈ s.toList, c ∉ reserved

instance (s : String) : Decidable (Plain s) :=
  inferInstanceAs (Decidable (∀ c ∈ s.toList, c ∉ reserved))

/-- What the four parts of a signature have to satisfy. -/
structure WellFormed (package typeName name parameters : String) : Prop where
  typeName_nonempty : typeName ≠ ""
  name_nonempty : name ≠ ""
  package_plain : Plain package
  typeName_plain : Plain typeName
  typeName_dotless : '.' ∉ typeName.toList
  name_plain : Plain name
  parameters_opened : parameters.toList.head? = some '('
  parameters_closed : parameters.toList.getLast? = some ')'
  parameters_unseparated : ';' ∉ parameters.toList

theorem wellFormed_iff
    {package typeName name parameters : String} :
    WellFormed package typeName name parameters ↔
      typeName ≠ "" ∧ name ≠ "" ∧ Plain package ∧ Plain typeName ∧ '.' ∉ typeName.toList ∧
        Plain name ∧ parameters.toList.head? = some '(' ∧
        parameters.toList.getLast? = some ')' ∧ ';' ∉ parameters.toList :=
  ⟨fun ⟨a, b, c, d, e, f, g, h, i⟩ => ⟨a, b, c, d, e, f, g, h, i⟩,
    fun ⟨a, b, c, d, e, f, g, h, i⟩ => ⟨a, b, c, d, e, f, g, h, i⟩⟩

instance (package typeName name parameters : String) :
    Decidable (WellFormed package typeName name parameters) :=
  decidable_of_iff' _ wellFormed_iff

end Signature

/-- The identity of one callable. -/
structure Signature where
  package : String
  typeName : String
  name : String
  parameters : String
  wellFormed : Signature.WellFormed package typeName name parameters
deriving DecidableEq

namespace Signature

/-- The signature with the given parts, unless they are ill-formed. -/
def ofParts? (package typeName name parameters : String) : Option Signature :=
  if h : WellFormed package typeName name parameters then
    some ⟨package, typeName, name, parameters, h⟩
  else
    none

/-- The canonical text. -/
def text (s : Signature) : String :=
  s.package ++ "." ++ s.typeName ++ "#" ++ s.name ++ s.parameters

/-- The package and type before a member; without a dot the package is empty. -/
def splitQualified (cs : List Char) : List Char × List Char :=
  (splitLast '.' cs).getD ([], cs)

/--
Reads a canonical text: the member starts after the first `#`, the type after the last dot before
it, and the parameter list at the first parenthesis of the member. The dot of an empty package may
be left out.
-/
def ofText? (s : String) : Option Signature := do
  let (qualified, member) ← splitFirst '#' s.toList
  let (name, parameters) ← splitFirst '(' member
  let (package, typeName) := splitQualified qualified
  ofParts? (String.ofList package) (String.ofList typeName) (String.ofList name)
    (String.ofList ('(' :: parameters))

/-- The parts as bytes, in the order in which signatures are compared. -/
def key (s : Signature) : List (List UInt8) :=
  [bytes s.package, bytes s.typeName, bytes s.name, bytes s.parameters]

theorem key_inj
    {s t : Signature} :
    s.key = t.key ↔ s = t := by
  cases s
  cases t
  simp [key, Text.bytes_inj]

instance : Ord Signature where
  compare s t := compare s.key t.key

theorem compare_def
    (s t : Signature) :
    compare s t = compare s.key t.key :=
  rfl

instance : Std.LawfulEqOrd Signature where
  compare_self {s} := (Std.ReflCmp.compare_self : compare s.key s.key = .eq)
  eq_of_compare {s t} h :=
    key_inj.1 (Std.LawfulEqCmp.eq_of_compare (show compare s.key t.key = .eq from h))

instance : Std.TransOrd Signature where
  eq_swap {s t} := (Std.OrientedCmp.eq_swap : compare s.key t.key = (compare t.key s.key).swap)
  isLE_trans {s t u} hst htu :=
    show (compare s.key u.key).isLE from
      Std.TransCmp.isLE_trans (show (compare s.key t.key).isLE from hst)
        (show (compare t.key u.key).isLE from htu)

instance : LT Signature where
  lt s t := compare s t = .lt

instance (s t : Signature) : Decidable (s < t) :=
  inferInstanceAs (Decidable (compare s t = .lt))

theorem lt_def
    {s t : Signature} :
    s < t ↔ compare s t = .lt :=
  Iff.rfl

end Signature

end LibraryModels
