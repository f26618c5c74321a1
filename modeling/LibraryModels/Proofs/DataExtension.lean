import LibraryModels.DataExtension
import LibraryModels.Proofs.ModelMap
import LibraryModels.Proofs.Row.Columns
import Mathlib.Data.List.Basic

/-!
# Documents of maps

Each block of a written document holds the rows of one kind, so reading it back collects the
entries of that kind, and all four blocks together give the map without what has no model.  A map
that was read from any document has a model for everything, whatever the document holds.
-/

namespace LibraryModels

namespace Row

variable {blanks : Blanks} {kind : Kind} {e : Entry}

/-- A row is read as a model of the kind that it is read for. -/
theorem read_kind?
    {columns : List String}
    (h : read blanks kind columns = some e) :
    e.2.kind? = some kind := by
  obtain ⟨g, m⟩ := e
  exact (read_eq_some_iff.1 h).1

theorem ofCells?_kind?
    {cells : List Yaml.Value}
    (h : ofCells? kind cells = some e) :
    e.2.kind? = some kind := by
  obtain ⟨columns, -, hread⟩ := Option.bind_eq_some_iff.1 h
  exact read_kind? hread

end Row

namespace Block

variable {kind : Kind} {language : String} {models : ModelMap}

theorem row?_eq_some_iff
    {e : Entry} {cells : List Yaml.Value} :
    row? kind e = some cells ↔ Row.toCells? e.1 e.2 = some (kind, cells) := by
  unfold row?
  cases h : Row.toCells? e.1 e.2 with
  | none => simp
  | some r =>
      obtain ⟨k, written⟩ := r
      by_cases hk : k = kind <;> simp [hk]

/-- Writing an entry into the block of a kind and reading the row keeps the entries of that kind. -/
theorem row?_bind_ofCells? (e : Entry) :
    (row? kind e).bind (Row.ofCells? kind) =
      Option.guard (fun e => e.2.kind? == some kind) e := by
  obtain ⟨g, m⟩ := e
  cases hrow : row? kind (g, m) with
  | some cells =>
      have hwritten := row?_eq_some_iff.1 hrow
      have hkind : m.kind? = some kind := Row.toCells?_kind hwritten
      simp [Option.guard, hkind, Row.ofCells?_toCells? hwritten]
  | none =>
      have hkind : m.kind? ≠ some kind := by
        intro hkind
        cases hcells : Row.toCells? g m with
        | none =>
            rw [Row.toCells?_eq_none_iff.1 hcells] at hkind
            cases hkind
        | some r =>
            obtain ⟨k, cells⟩ := r
            have : k = kind := by
              rw [Row.toCells?_kind hcells] at hkind
              exact Option.some.inj hkind
            subst this
            rw [row?_eq_some_iff.2 hcells] at hrow
            cases hrow
      simp [Option.guard, hkind]

theorem kind?_ofModels :
    (ofModels language models kind).kind? = some kind :=
  Kind.ofPredicate?_predicate kind

theorem entries_ofModels :
    (ofModels language models kind).entries = models.ofKind kind := by
  rw [entries, kind?_ofModels]
  show (models.toList.filterMap (row? kind)).filterMap (Row.ofCells? kind) = _
  rw [List.filterMap_filterMap, ModelMap.ofKind, ← List.filterMap_eq_filter]
  exact List.filterMap_congr fun e _ => row?_bind_ofCells? e

/-- No written row is passed over in reading. -/
theorem warning?_ofModels :
    (ofModels language models kind).warning? = none := by
  have hreads : ∀ cells ∈ (ofModels language models kind).rows,
      (Row.ofCells? kind cells).isSome := by
    intro cells hcells
    obtain ⟨e, -, hrow⟩ := List.mem_filterMap.1 hcells
    rw [Row.ofCells?_toCells? (row?_eq_some_iff.1 hrow)]
    rfl
  have hlength : (ofModels language models kind).entries.length =
      (ofModels language models kind).rows.length := by
    rw [entries, kind?_ofModels]
    exact List.filterMap_length_eq_length.2 hreads
  rw [warning?, kind?_ofModels]
  simp [hlength]

theorem ne_unmodeled_of_mem_entries
    {b : Block} {e : Entry}
    (h : e ∈ b.entries) :
    e.2 ≠ .unmodeled := by
  unfold entries at h
  split at h
  · obtain ⟨cells, -, hread⟩ := List.mem_filterMap.1 h
    intro hm
    have hkind := Row.ofCells?_kind? hread
    rw [hm] at hkind
    cases hkind
  · cases h

/-- What has no model leaves no trace in a block. -/
theorem ofModels_modeled :
    ofModels language models.modeled kind = ofModels language models kind := by
  have hrows : models.modeled.toList.filterMap (row? kind) =
      models.toList.filterMap (row? kind) := by
    show (models.entries.filter _).filterMap (row? kind) = _
    rw [List.filterMap_filter]
    refine List.filterMap_congr fun e _ => ?_
    split
    · rfl
    · next hm =>
        simp only [ne_eq, decide_not, Bool.not_eq_eq_eq_not, Bool.not_true,
          decide_eq_false_iff_not, not_not] at hm
        rw [row?, hm]
        rfl
  rw [ofModels, ofModels, hrows]

end Block

namespace DataExtension

variable {language : String} {models : ModelMap}

theorem entries_ofModels :
    (ofModels language models).entries = Kind.all.flatMap models.ofKind := by
  rw [entries, ofModels, List.flatMap_map]
  exact congrArg (Kind.all.flatMap ·) (funext fun _ => Block.entries_ofModels)

theorem mem_entries_ofModels
    {e : Entry} :
    e ∈ (ofModels language models).entries ↔ e ∈ models.modeled.entries := by
  obtain ⟨g, m⟩ := e
  rw [entries_ofModels, ModelMap.mem_modeled]
  simp only [List.mem_flatMap, ModelMap.ofKind, List.mem_filter, beq_iff_eq]
  constructor
  · rintro ⟨kind, -, hmem, hkind⟩
    refine ⟨hmem, ?_⟩
    rintro rfl
    cases hkind
  · rintro ⟨hmem, hm⟩
    cases m with
    | unmodeled => exact absurd rfl hm
    | summary => exact ⟨.summary, by decide, hmem, rfl⟩
    | sink => exact ⟨.sink, by decide, hmem, rfl⟩
    | source => exact ⟨.source, by decide, hmem, rfl⟩
    | neutral => exact ⟨.neutral, by decide, hmem, rfl⟩

/-- The document of a map is read as the map, less what has no model. -/
theorem toModels_ofModels (language : String) (models : ModelMap) :
    (ofModels language models).toModels = models.modeled :=
  ModelMap.ofList_eq_of_mem_iff fun _ => mem_entries_ofModels

theorem warnings_ofModels (language : String) (models : ModelMap) :
    (ofModels language models).warnings = [] := by
  rw [warnings, List.filterMap_eq_nil_iff]
  intro b hb
  obtain ⟨kind, -, rfl⟩ := List.mem_map.1 hb
  exact Block.warning?_ofModels

theorem ofModels_modeled :
    ofModels language models.modeled = ofModels language models := by
  have hblocks : Block.ofModels language models.modeled = Block.ofModels language models :=
    funext fun _ => Block.ofModels_modeled
  rw [ofModels, ofModels, hblocks]

/-- Everything in a map that was read from a document has a model. -/
theorem ne_unmodeled_of_get?_toModels
    {d : DataExtension} {g : Signature} {m : Method}
    (h : d.toModels.get? g = some m) :
    m ≠ .unmodeled := by
  rw [toModels, ModelMap.get?_ofList] at h
  obtain ⟨b, -, hb⟩ := List.mem_flatMap.1 (ModelMap.mem_of_lastWrite_eq_some h)
  exact Block.ne_unmodeled_of_mem_entries hb

theorem modeled_toModels (d : DataExtension) :
    d.toModels.modeled = d.toModels :=
  ModelMap.modeled_eq_self fun _ he =>
    ne_unmodeled_of_get?_toModels (ModelMap.get?_eq_some_iff.2 he)

end DataExtension

end LibraryModels
