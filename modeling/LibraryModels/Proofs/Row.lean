import LibraryModels.Proofs.Signature
import LibraryModels.Row

/-!
# Rows read back

A row that is written for an entry is read as that entry.  Writing chooses the kind of the row by
the kind of the method, so a method without a model is the only one without a row.
-/

namespace LibraryModels

@[simp] theorem Vocabulary.ofName?_name
    {α : Type} [Vocabulary α] [LawfulVocabulary α] (a : α) :
    ofName? (name a) = some a :=
  LawfulVocabulary.ofName?_name a

namespace Row

variable {g : Signature} {m : Method} {kind : Kind} {cells : List Yaml.Value}

@[simp] theorem column_kept (s : String) :
    column .kept s = some s := rfl

theorem toCells?_kind
    (h : toCells? g m = some (kind, cells)) :
    m.kind? = some kind := by
  cases m <;> cases h <;> rfl

theorem toCells?_eq_none_iff :
    toCells? g m = none ↔ m = .unmodeled := by
  cases m <;> simp [toCells?]

/-- A written row is read as the entry that it was written for. -/
theorem ofCells?_toCells?
    (h : toCells? g m = some (kind, cells)) :
    ofCells? kind cells = some (g, m) := by
  have htrue : subtypes? (Yaml.boolText true) = some true := rfl
  cases m <;> cases h <;>
    simp [ofCells?, head, Yaml.Value.scalarText?, read, htrue]

end Row

end LibraryModels
