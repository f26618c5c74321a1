import LibraryModels.Proofs.Row

/-!
# The columns of an entry

Reading a row succeeds exactly on the columns of the entry that it gives: subtypes may be either
boolean word and ext anything, and every other column is determined by the entry.  A query's row
is one text, so there the columns are moreover free of `;`, and no input, output or kind is blank.
-/

namespace LibraryModels

/-- The texts of a model that are not taken from a vocabulary. -/
def Method.fields : Method → List String
  | .summary input output _ _ => [input, output]
  | .sink input kind _ => [input, kind]
  | .source output kind _ => [output, kind]
  | .neutral _ => []
  | .unmodeled => []

namespace Row

variable {blanks : Blanks} {kind : Kind} {columns : List String}
variable {g : Signature} {m : Method} {s t raw ext : String} {b subtypes : Bool}

/-- The columns of a row for an entry, by what stands in its subtypes and ext columns. -/
def columnsOf (g : Signature) (subtypes : Bool) (ext : String) : Method → List String
  | .summary input output kind provenance =>
    [g.package, g.typeName, Yaml.boolText subtypes, g.name, g.parameters, ext,
      input, output, Vocabulary.name kind, Vocabulary.name provenance]
  | .sink input kind provenance =>
    [g.package, g.typeName, Yaml.boolText subtypes, g.name, g.parameters, ext,
      input, kind, Vocabulary.name provenance]
  | .source output kind provenance =>
    [g.package, g.typeName, Yaml.boolText subtypes, g.name, g.parameters, ext,
      output, kind, Vocabulary.name provenance]
  | .neutral provenance =>
    [g.package, g.typeName, g.name, g.parameters, Vocabulary.name provenance]
  | .unmodeled => []

/-! ## Reading columns -/

theorem column_eq_some_iff :
    column blanks s = some t ↔ s = t ∧ (blanks = .refused → s ≠ "") := by
  unfold column
  split
  · next h => simp [h.1, h.2]
  · next h =>
      rw [Option.some.injEq]
      exact ⟨fun hst => ⟨hst, fun hb hs => h ⟨hb, hs⟩⟩, fun hst => hst.1⟩

theorem subtypes?_eq_some_iff :
    subtypes? s = some b ↔ s = Yaml.boolText b := by
  unfold subtypes?
  cases b <;> split <;> simp_all [Yaml.boolText]

/-- A row is read as an entry of the kind exactly if it consists of the columns of that entry. -/
theorem read_eq_some_iff :
    read blanks kind columns = some (g, m) ↔
      m.kind? = some kind ∧ (∀ s ∈ m.fields, blanks = .refused → s ≠ "") ∧
        ∃ subtypes ext, columns = columnsOf g subtypes ext m := by
  constructor
  · intro h
    unfold read at h
    split at h
    case h_5 => cases h
    all_goals
      simp only [Option.bind_eq_bind, Option.bind_eq_some_iff, Option.pure_def,
        Option.some.injEq, column_eq_some_iff, subtypes?_eq_some_iff,
        Vocabulary.ofName?_eq_some_iff, Signature.ofParts?_eq_some_iff, Prod.mk.injEq] at h
    case h_1 =>
      obtain ⟨subtypes, rfl, input, ⟨rfl, hinput⟩, output, ⟨rfl, houtput⟩, _, rfl, _, rfl, _,
        ⟨rfl, rfl, rfl, rfl⟩, rfl, rfl⟩ := h
      exact ⟨rfl, by simpa [Method.fields] using ⟨hinput, houtput⟩, subtypes, _, rfl⟩
    case h_2 =>
      obtain ⟨subtypes, rfl, input, ⟨rfl, hinput⟩, label, ⟨rfl, hlabel⟩, _, rfl, _,
        ⟨rfl, rfl, rfl, rfl⟩, rfl, rfl⟩ := h
      exact ⟨rfl, by simpa [Method.fields] using ⟨hinput, hlabel⟩, subtypes, _, rfl⟩
    case h_3 =>
      obtain ⟨subtypes, rfl, output, ⟨rfl, houtput⟩, label, ⟨rfl, hlabel⟩, _, rfl, _,
        ⟨rfl, rfl, rfl, rfl⟩, rfl, rfl⟩ := h
      exact ⟨rfl, by simpa [Method.fields] using ⟨houtput, hlabel⟩, subtypes, _, rfl⟩
    case h_4 =>
      obtain ⟨_, rfl, _, ⟨rfl, rfl, rfl, rfl⟩, rfl, rfl⟩ := h
      exact ⟨rfl, by simp [Method.fields], true, "", rfl⟩
  · rintro ⟨hkind, hfields, subtypes, ext, rfl⟩
    have hsubtypes : subtypes? (Yaml.boolText subtypes) = some subtypes :=
      subtypes?_eq_some_iff.2 rfl
    have hcolumn : ∀ s ∈ m.fields, column blanks s = some s := by
      intro s hs
      exact column_eq_some_iff.2 ⟨rfl, hfields s hs⟩
    cases m with
    | unmodeled => cases hkind
    | neutral provenance =>
        cases hkind
        simp [read, columnsOf]
    | summary | sink | source =>
        cases hkind
        simp only [Method.fields, List.forall_mem_cons] at hcolumn
        simp [read, columnsOf, hsubtypes, hcolumn]

/-! ## Columns in one text -/

theorem columnsOf_ne_nil
    (h : m.kind? = some kind) :
    columnsOf g subtypes ext m ≠ [] := by
  cases m with
  | unmodeled => cases h
  | summary | sink | source | neutral => exact List.cons_ne_nil _ _

theorem toList_intercalate (columns : List String) :
    (";".intercalate columns).toList = Text.joinWith ';' (columns.map String.toList) := by
  induction columns with
  | nil => rfl
  | cons first rest ih =>
      cases rest with
      | nil => simp [Text.joinWith]
      | cons second rest =>
          rw [String.intercalate_cons_cons, String.toList_append, String.toList_append, ih]
          simp [Text.joinWith]

/-- A text has these columns exactly if it is their join and none of them holds the separator. -/
theorem columnsOfTuple_eq_iff
    (hne : columns ≠ []) :
    columnsOfTuple raw = columns ↔
      (∀ c ∈ columns, ';' ∉ c.toList) ∧ raw = ";".intercalate columns := by
  constructor
  · rintro rfl
    refine ⟨?_, ?_⟩
    · intro c hc
      obtain ⟨piece, hpiece, rfl⟩ := List.mem_map.1 hc
      rw [String.toList_ofList]
      exact Text.not_mem_of_mem_pieces hpiece
    · have hpieces : (columnsOfTuple raw).map String.toList = Text.pieces ';' raw.toList := by
        simp [columnsOfTuple, Function.comp_def]
      rw [← String.toList_inj, toList_intercalate, hpieces, Text.joinWith_pieces]
  · rintro ⟨hfree, rfl⟩
    have hpieces : Text.pieces ';' (Text.joinWith ';' (columns.map String.toList)) =
        columns.map String.toList :=
      Text.pieces_joinWith (by simpa using hne) (by simpa using hfree)
    rw [columnsOfTuple, toList_intercalate, hpieces]
    simp [Function.comp_def]

/-- Only the texts that are free to choose can hold the separator. -/
theorem not_mem_of_mem_columnsOf
    (hfields : ∀ s ∈ m.fields, ';' ∉ s.toList) (hext : ';' ∉ ext.toList) :
    ∀ c ∈ columnsOf g subtypes ext m, ';' ∉ c.toList := by
  have hpackage := g.wellFormed.package_plain.not_mem (c := ';') (by decide)
  have htype := g.wellFormed.typeName_plain.not_mem (c := ';') (by decide)
  have hname := g.wellFormed.name_plain.not_mem (c := ';') (by decide)
  have hparameters := g.wellFormed.parameters_unseparated
  have hsubtypes : ';' ∉ (Yaml.boolText subtypes).toList := by cases subtypes <;> decide
  have hkind : ∀ kind : SummaryKind, ';' ∉ (Vocabulary.name kind).toList := by
    intro kind
    cases kind <;> decide
  have hprovenance : ∀ provenance : Provenance, ';' ∉ (Vocabulary.name provenance).toList := by
    intro provenance
    cases provenance <;> decide
  cases m with
  | unmodeled => simp [columnsOf]
  | summary | sink | source | neutral =>
      simp only [Method.fields, List.forall_mem_cons] at hfields
      simp [columnsOf, *]

theorem mem_columnsOf_of_mem_fields
    (h : s ∈ m.fields) :
    s ∈ columnsOf g subtypes ext m := by
  cases m with
  | unmodeled | neutral => cases h
  | summary | sink | source =>
      simp only [Method.fields, List.mem_cons, List.not_mem_nil, or_false] at h
      rcases h with rfl | rfl
      · simp [columnsOf]
      · simp [columnsOf]

/-- A row without an ext column has the columns that it would have with any text there. -/
theorem exists_ext
    (hfree : ∀ c ∈ columnsOf g subtypes ext m, ';' ∉ c.toList) :
    ∃ ext', ';' ∉ ext'.toList ∧
      columnsOf g subtypes ext m = columnsOf g subtypes ext' m := by
  cases m with
  | unmodeled | neutral => exact ⟨"", by decide, rfl⟩
  | summary | sink | source => exact ⟨ext, hfree ext (by simp [columnsOf]), rfl⟩

/-! ## The rows of queries -/

theorem ofTuple?_eq_some_iff :
    ofTuple? kind raw = some (g, m) ↔
      m.kind? = some kind ∧ (∀ s ∈ m.fields, s ≠ "" ∧ ';' ∉ s.toList) ∧
        ∃ subtypes ext, ';' ∉ ext.toList ∧
          raw = ";".intercalate (columnsOf g subtypes ext m) := by
  rw [ofTuple?, ofColumns?, read_eq_some_iff]
  constructor
  · rintro ⟨hkind, hblank, subtypes, ext, hcolumns⟩
    obtain ⟨hfree, hraw⟩ := (columnsOfTuple_eq_iff (columnsOf_ne_nil hkind)).1 hcolumns
    obtain ⟨ext', hext, heq⟩ := exists_ext hfree
    refine ⟨hkind, ?_, subtypes, ext', hext, by rw [hraw, heq]⟩
    intro s hs
    exact ⟨hblank s hs rfl, hfree s (mem_columnsOf_of_mem_fields hs)⟩
  · rintro ⟨hkind, hfields, subtypes, ext, hext, hraw⟩
    refine ⟨hkind, fun s hs _ => (hfields s hs).1, subtypes, ext, ?_⟩
    have hfree : ∀ c ∈ columnsOf g subtypes ext m, ';' ∉ c.toList :=
      not_mem_of_mem_columnsOf (fun s hs => (hfields s hs).2) hext
    exact (columnsOfTuple_eq_iff (columnsOf_ne_nil hkind)).2 ⟨hfree, hraw⟩

/--
A query's row is read as an entry exactly if it is the join of that entry's columns, where
subtypes is either boolean word and ext holds no separator; the entry is of the kind that is asked
for, and each entry of that kind whose texts fit into columns has a row.
-/
theorem ofTuple?_accepts (kind : Kind) :
    (∀ raw g m, ofTuple? kind raw = some (g, m) ↔
      m.kind? = some kind ∧ (∀ s ∈ m.fields, s ≠ "" ∧ ';' ∉ s.toList) ∧
        ∃ subtypes ext, ';' ∉ ext.toList ∧
          raw = ";".intercalate (columnsOf g subtypes ext m)) ∧
      (∀ g m, (∃ raw, ofTuple? kind raw = some (g, m)) ↔
        m.kind? = some kind ∧ ∀ s ∈ m.fields, s ≠ "" ∧ ';' ∉ s.toList) ∧
      ∀ raw g, ofTuple? kind raw ≠ some (g, .unmodeled) := by
  refine ⟨fun _ _ _ => ofTuple?_eq_some_iff, ?_, ?_⟩
  · intro g m
    simp only [ofTuple?_eq_some_iff]
    constructor
    · rintro ⟨raw, hkind, hfields, -⟩
      exact ⟨hkind, hfields⟩
    · rintro ⟨hkind, hfields⟩
      exact ⟨_, hkind, hfields, true, "", by decide, rfl⟩
  · intro raw g h
    cases (ofTuple?_eq_some_iff.1 h).1

end Row

end LibraryModels
