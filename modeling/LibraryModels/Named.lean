/-!
# Closed vocabularies

Kinds, provenances and similar words come from short closed lists. A vocabulary gives every value
one spelling; reading a spelling is a search of the list, so reading what was written gives the
value back whenever spellings are distinct.
-/

namespace LibraryModels

/-- A finite type whose values are written as words. -/
class Vocabulary (α : Type) where
  /-- All values, in the order in which messages list them. -/
  all : List α
  /-- The written form of a value. -/
  name : α → String

namespace Vocabulary

/-- The value written `s`, if any. -/
def ofName? {α : Type} [Vocabulary α] (s : String) : Option α :=
  (all : List α).find? fun a => name a == s

/-- All written forms, in order. -/
def names (α : Type) [Vocabulary α] : List String :=
  (all : List α).map name

end Vocabulary

/-- A vocabulary without synonyms and without gaps. -/
class LawfulVocabulary (α : Type) [Vocabulary α] : Prop where
  ofName?_name : ∀ a : α, Vocabulary.ofName? (Vocabulary.name a) = some a

namespace Vocabulary

theorem ofName?_eq_some_iff
    {α : Type} [Vocabulary α] [LawfulVocabulary α] {s : String} {a : α} :
    ofName? s = some a ↔ s = name a := by
  constructor
  · intro h
    have : (name a == s) = true := List.find?_some (p := fun a => name a == s) h
    exact (beq_iff_eq.1 this).symm
  · rintro rfl
    exact LawfulVocabulary.ofName?_name a

end Vocabulary

end LibraryModels
