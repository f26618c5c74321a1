import LibraryModels.Proofs.Row.Columns

/-!
# The rows of documents

A document's row is read by the texts of its cells.  The reader for documents and the reader for
queries then differ only in what they do with a blank input, output or kind: everything else that
one of them refuses is refused by the other.  A row that is read and written again has the same
texts in the same columns, except that subtypes is always true and ext is always blank, so writing
a row once more changes nothing.
-/

namespace LibraryModels

open Yaml (Value)

/-- A value that may stand in a row. -/
def IsScalar (cell : Value) : Prop :=
  (∃ s, cell = .string s) ∨ (∃ b, cell = .bool b) ∨ ∃ n, cell = .number n

theorem isScalar_iff_exists_scalarText?
    {cell : Value} :
    IsScalar cell ↔ ∃ text, cell.scalarText? = some text := by
  constructor
  · rintro (⟨s, rfl⟩ | ⟨b, rfl⟩ | ⟨n, rfl⟩)
    · exact ⟨s, rfl⟩
    · exact ⟨Yaml.boolText b, rfl⟩
    · exact ⟨Yaml.numberText n, rfl⟩
  · rintro ⟨text, htext⟩
    unfold Value.scalarText? at htext
    split at htext
    · exact .inl ⟨_, rfl⟩
    · exact .inr (.inl ⟨_, rfl⟩)
    · exact .inr (.inr ⟨_, rfl⟩)
    · exact absurd htext (Option.some_ne_none text).symm

namespace Row

variable {kind : Kind} {g : Signature} {m : Method} {cells : List Value}
variable {texts columns : List String}

/-! ## The texts of cells -/

/-- The texts of the cells, column by column; only scalars have one. -/
def HaveTexts (cells : List Value) (texts : List String) : Prop :=
  cells.map Value.scalarText? = texts.map some

theorem haveTexts_iff : HaveTexts cells texts ↔ cells.mapM Value.scalarText? = some texts := by
  rw [HaveTexts]
  induction cells generalizing texts with
  | nil =>
      rw [List.map_nil, List.mapM_nil, Option.pure_def, Option.some.injEq]
      exact ⟨fun h => (List.map_eq_nil_iff.1 h.symm).symm, fun h => h ▸ rfl⟩
  | cons cell rest ih =>
      simp only [List.map_cons, List.mapM_cons, Option.bind_eq_bind, Option.bind_eq_some_iff,
        Option.pure_def, Option.some.injEq, ← ih]
      constructor
      · intro h
        obtain ⟨text, texts, rfl, htext, htexts⟩ := List.map_eq_cons_iff.1 h.symm
        exact ⟨text, htext.symm, texts, htexts.symm, rfl⟩
      · rintro ⟨text, htext, texts, htexts, rfl⟩
        rw [List.map_cons, htext, htexts]

theorem HaveTexts.length_eq
    (h : HaveTexts cells texts) :
    texts.length = cells.length := by
  have hlength := congrArg List.length h
  rw [List.length_map, List.length_map] at hlength
  exact hlength.symm

theorem HaveTexts.isScalar
    (h : HaveTexts cells texts) :
    ∀ cell ∈ cells, IsScalar cell := by
  intro cell hcell
  have hmem : cell.scalarText? ∈ texts.map some := by
    rw [← h]
    exact List.mem_map_of_mem hcell
  obtain ⟨text, -, htext⟩ := List.mem_map.1 hmem
  exact isScalar_iff_exists_scalarText?.2 ⟨text, htext.symm⟩

theorem exists_haveTexts
    (h : ∀ cell ∈ cells, IsScalar cell) :
    ∃ texts, HaveTexts cells texts := by
  induction cells with
  | nil => exact ⟨[], rfl⟩
  | cons cell rest ih =>
      obtain ⟨text, htext⟩ := isScalar_iff_exists_scalarText?.1 (h cell List.mem_cons_self)
      obtain ⟨texts, htexts⟩ := ih fun other hother => h other (List.mem_cons_of_mem cell hother)
      refine ⟨text :: texts, ?_⟩
      rw [HaveTexts, List.map_cons, List.map_cons, htext, htexts]

/-- A document's row is read by the texts of its cells. -/
theorem ofCells?_eq_some_iff
    {e : Entry} :
    ofCells? kind cells = some e ↔
      ∃ texts, HaveTexts cells texts ∧ read .kept kind texts = some e := by
  simp only [haveTexts_iff]
  exact Option.bind_eq_some_iff

theorem HaveTexts.ofCells?_eq
    (h : HaveTexts cells texts) :
    ofCells? kind cells = read .kept kind texts := by
  rw [ofCells?, haveTexts_iff.1 h]
  rfl

/-- A row with anything but scalars in it is not read. -/
theorem ofCells?_eq_none
    (h : ∃ cell ∈ cells, ¬ IsScalar cell) :
    ofCells? kind cells = none := by
  obtain ⟨cell, hcell, hscalar⟩ := h
  rw [Option.eq_none_iff_forall_ne_some]
  intro e he
  obtain ⟨texts, htexts, -⟩ := ofCells?_eq_some_iff.1 he
  exact hscalar (htexts.isScalar cell hcell)

/-! ## Blanks -/

/-- Refusing blanks refuses the entries with a blank text, and no others. -/
theorem read_refused_eq_some_iff :
    read .refused kind columns = some (g, m) ↔
      read .kept kind columns = some (g, m) ∧ ∀ s ∈ m.fields, s ≠ "" := by
  rw [read_eq_some_iff, read_eq_some_iff]
  constructor
  · rintro ⟨hkind, hfields, hcolumns⟩
    have hnonblank : ∀ s ∈ m.fields, s ≠ "" := fun s hs => hfields s hs rfl
    exact ⟨⟨hkind, fun s hs _ => hnonblank s hs, hcolumns⟩, hnonblank⟩
  · rintro ⟨⟨hkind, -, hcolumns⟩, hnonblank⟩
    exact ⟨hkind, fun s hs _ => hnonblank s hs, hcolumns⟩

theorem fields_of_neutral
    (h : m.kind? = some .neutral) :
    m.fields = [] := by
  cases m with
  | neutral provenance => rfl
  | summary | sink | source | unmodeled => cases h

/-- A neutral row has no column that blanks are refused in. -/
theorem read_refused_neutral (columns : List String) :
    read .refused .neutral columns = read .kept .neutral columns := by
  ext ⟨g, m⟩
  rw [read_refused_eq_some_iff]
  refine ⟨fun h => h.1, fun h => ⟨h, ?_⟩⟩
  have hkind : m.kind? = some .neutral := (read_eq_some_iff.1 h).1
  rw [fields_of_neutral hkind]
  intro s hs
  exact absurd hs List.not_mem_nil

/--
A document's row with anything but scalars is not read.  With scalars only, its texts are read as a
query's row exactly if the row itself is read as the same entry and that entry has no blank input,
output or kind; neutral rows are read alike.
-/
theorem queries_refuse_blanks_only (kind : Kind) (cells : List Value) :
    ((∃ cell ∈ cells, ¬ IsScalar cell) → ofCells? kind cells = none) ∧
      ((∀ cell ∈ cells, IsScalar cell) →
        ∃ texts, HaveTexts cells texts ∧
          (∀ g m, ofColumns? kind texts = some (g, m) ↔
            ofCells? kind cells = some (g, m) ∧ ∀ s ∈ m.fields, s ≠ "") ∧
          (kind = .neutral → ofColumns? kind texts = ofCells? kind cells)) := by
  constructor
  · exact ofCells?_eq_none
  · intro hscalar
    obtain ⟨texts, htexts⟩ := exists_haveTexts hscalar
    refine ⟨texts, htexts, ?_, ?_⟩
    · intro g m
      rw [htexts.ofCells?_eq]
      exact read_refused_eq_some_iff
    · rintro rfl
      rw [htexts.ofCells?_eq]
      exact read_refused_neutral texts

/-! ## Rows written again -/

/-- A document's row, read and written again. -/
def rewrite? (kind : Kind) (cells : List Value) : Option (Kind × List Value) :=
  ofCells? kind cells >>= fun e => toCells? e.1 e.2

/-- How a text is written in a column: only neutral rows have neither subtypes nor ext. -/
def storedCell (kind : Kind) (column : Nat) (text : String) : Value :=
  if kind = .neutral then .string text
  else if column = 2 then .bool true
  else if column = 5 then .string ""
  else .string text

/-- The row of an entry has the texts that the entry is read from, subtypes and ext apart. -/
theorem toCells?_eq_mapIdx
    (h : m.kind? = some kind) (subtypes : Bool) (ext : String) :
    toCells? g m = some (kind, (columnsOf g subtypes ext m).mapIdx (storedCell kind)) := by
  cases m with
  | unmodeled => cases h
  | summary | sink | source | neutral =>
      cases h
      rfl

theorem toCells?_of_read
    (h : read .kept kind columns = some (g, m)) :
    toCells? g m = some (kind, columns.mapIdx (storedCell kind)) := by
  obtain ⟨hkind, -, subtypes, ext, rfl⟩ := read_eq_some_iff.1 h
  exact toCells?_eq_mapIdx hkind subtypes ext

/--
A document's row is written again column by column: as the text of its cell, but for subtypes,
which is true, and ext, which is blank.  What is written is read as the same entry, and is written
as itself.
-/
theorem rewritten_columns
    (h : ofCells? kind cells = some (g, m)) :
    ∃ written, toCells? g m = some (kind, written) ∧ written.length = cells.length ∧
      (∀ column cell, cells[column]? = some cell →
        ∃ text, cell.scalarText? = some text ∧
          written[column]? = some (storedCell kind column text)) ∧
      ofCells? kind written = some (g, m) ∧ rewrite? kind written = some (kind, written) := by
  obtain ⟨texts, htexts, hread⟩ := ofCells?_eq_some_iff.1 h
  have hwritten := toCells?_of_read hread
  have hagain := ofCells?_toCells? hwritten
  refine ⟨texts.mapIdx (storedCell kind), hwritten, ?_, ?_, hagain, ?_⟩
  · rw [List.length_mapIdx, htexts.length_eq]
  · intro column cell hcell
    have htext : (texts.map some)[column]? = some cell.scalarText? := by
      rw [← htexts, List.getElem?_map, hcell, Option.map_some]
    obtain ⟨text, hcolumn, htext⟩ := Option.map_eq_some_iff.1 (List.getElem?_map ▸ htext)
    refine ⟨text, htext.symm, ?_⟩
    rw [List.getElem?_mapIdx, hcolumn, Option.map_some]
  · rw [rewrite?, hagain]
    exact hwritten

theorem rewritten_columns_mixed :
    let m : Method := .summary "" "false" .value .aiManual
    let cells : List Value :=
      [.number (.integer 7), .bool true, .string "false", .number (.integer (-3)), .string "()",
        .bool true, .string "", .bool false, .string "value", .string "ai-manual"]
    ∃ g, Signature.ofText? "7.true#-3()" = some g ∧ ofCells? .summary cells = some (g, m) ∧
      ∃ written, toCells? g m = some (.summary, written) ∧ written.length = cells.length ∧
        (∀ column cell, cells[column]? = some cell →
          ∃ text, cell.scalarText? = some text ∧
            written[column]? = some (storedCell .summary column text)) ∧
        ofCells? .summary written = some (g, m) ∧
        rewrite? .summary written = some (.summary, written) := by
  intro m cells
  let g : Signature := ⟨"7", "true", "-3", "()", by
    simp [Signature.wellFormed_iff, Signature.Plain, Signature.reserved]⟩
  have hname : Signature.ofText? "7.true#-3()" = some g :=
    Signature.ofText?_eq_some_iff.2 (.inl rfl)
  have htexts : HaveTexts cells (columnsOf g false "true" m) := rfl
  have hread : ofCells? .summary cells = some (g, m) := by
    rw [htexts.ofCells?_eq, read_eq_some_iff]
    exact ⟨rfl, fun _ _ h => (nomatch h), false, "true", rfl⟩
  exact ⟨g, hname, hread, rewritten_columns hread⟩

end Row

end LibraryModels
