import LibraryModels.DataExtension.Yaml
import LibraryModels.Proofs.DataExtension
import LibraryModels.Proofs.Yaml.Decode

/-!
# Data extensions and their text

The text of a document is read back as the document, as long as its cells are texts and booleans.
Whatever the texts hold, none of them is taken for anything else and none ends early.  Documents of
maps hold nothing else, so a map that is written out is read back without loss.
-/

namespace LibraryModels

open Yaml (Decoder Document Node Path Regular Value isFieldName)

/-- A cell that is a text or a boolean. -/
def IsTextOrBool (cell : Value) : Prop :=
  (∃ s, cell = .string s) ∨ ∃ b, cell = .bool b

theorem IsTextOrBool.regular
    {cell : Value}
    (h : IsTextOrBool cell) :
    Regular cell := by
  rcases h with ⟨s, rfl⟩ | ⟨b, rfl⟩
  · exact .string s
  · exact .bool b

theorem IsTextOrBool.value_node
    {cell : Value} {d : Document} {depth : Nat}
    (h : IsTextOrBool cell) :
    d.value depth cell.node = pure cell := by
  rcases h with ⟨s, rfl⟩ | ⟨b, rfl⟩
  · exact Document.value_string s
  · exact Document.value_bool b

/-- A row that is written for an entry holds texts and booleans. -/
theorem Row.isTextOrBool_of_toCells?
    {g : Signature} {m : Method} {kind : Kind} {cells : List Value}
    (h : toCells? g m = some (kind, cells)) :
    ∀ cell ∈ cells, IsTextOrBool cell := by
  cases m <;> cases h <;> simp [head, IsTextOrBool]

/-- All cells of a block are texts and booleans. -/
def Block.HasTexts (b : Block) : Prop :=
  ∀ row ∈ b.rows, ∀ cell ∈ row, IsTextOrBool cell

/-- All cells of a document are texts and booleans. -/
def DataExtension.HasTexts (d : DataExtension) : Prop :=
  ∀ b ∈ d.blocks, b.HasTexts

/-- The names of the fields of documents. -/
theorem isFieldName_of_mem
    {name : String}
    (h : name ∈ ["extensions", "addsTo", "data", "pack", "extensible"]) :
    isFieldName (.string name) = true := by
  revert name
  decide

/-! ## Blocks -/

namespace Block

variable {b : Block} {d : Document} {depth : Nat} {path : Path}

theorem regular_targetYaml (t : Target) : Regular (targetYaml t) := by
  refine .mapping ?_ ?_
  · simp only [List.forall_mem_cons]
    exact ⟨isFieldName_of_mem (by decide), isFieldName_of_mem (by decide), fun _ h => by cases h⟩
  · simp only [List.forall_mem_cons]
    exact ⟨.string _, .string _, fun _ h => by cases h⟩

theorem regular_toYaml
    (h : b.HasTexts) :
    Regular b.toYaml := by
  have hrows : Regular (.sequence (b.rows.map .sequence)) := by
    refine .sequence_of_forall fun v hv => ?_
    obtain ⟨row, hrow, rfl⟩ := List.mem_map.mp hv
    exact .sequence_of_forall fun cell hcell => (h row hrow cell hcell).regular
  refine .mapping ?_ ?_
  · simp only [List.forall_mem_cons]
    exact ⟨isFieldName_of_mem (by decide), isFieldName_of_mem (by decide), fun _ h => by cases h⟩
  · simp only [List.forall_mem_cons]
    exact ⟨regular_targetYaml _, hrows, fun _ h => by cases h⟩

theorem targetOfNode_node (t : Target) :
    targetOfNode d (depth + 1) path (targetYaml t).node = pure t := by
  have hfields : targetYaml t = .mapping
      (([("pack", .string t.1), ("extensible", .string t.2)] : List (String × Value)).map
        fun e => (.string e.1, e.2)) := rfl
  rw [targetOfNode, hfields, Document.fields_node]
  simp [Document.string_node, Yaml.setOnce, Yaml.require]

theorem rowsOfNode_node
    (h : b.HasTexts) :
    rowsOfNode d (depth + 2) path (Value.sequence (b.rows.map .sequence)).node = pure b.rows := by
  have hrow : ∀ row ∈ b.rows, ∀ path, d.list (depth + 1) path (fun depth _ cell =>
      d.value depth cell) (Value.sequence row).node = pure row := by
    intro row hrow path
    have hcells : d.list (depth + 1) path (fun depth _ cell => d.value depth cell)
        (Value.sequence (row.map id)).node = pure (row.map id) :=
      Document.list_node _ id id row fun cell hcell _ => (h row hrow cell hcell).value_node
    simpa using hcells
  rw [rowsOfNode, Document.list_node _ Value.sequence id b.rows hrow, List.map_id]

theorem ofNode_node
    (h : b.HasTexts) :
    ofNode d (depth + 3) path b.toYaml.node = pure b := by
  have hfields : b.toYaml = .mapping
      (([("addsTo", targetYaml (b.pack, b.predicate)),
        ("data", .sequence (b.rows.map .sequence))] : List (String × Value)).map
          fun e => (.string e.1, e.2)) := rfl
  rw [ofNode, hfields, Document.fields_node]
  simp [targetOfNode_node, rowsOfNode_node h, Yaml.setOnce, Yaml.require]

end Block

/-! ## Documents -/

namespace DataExtension

variable {d : DataExtension}

theorem regular_toYaml
    (h : d.HasTexts) :
    Regular (.sequence (d.blocks.map Block.toYaml)) := by
  refine .sequence_of_forall fun v hv => ?_
  obtain ⟨b, hb, rfl⟩ := List.mem_map.mp hv
  exact Block.regular_toYaml (h b hb)

theorem ofNode_node
    {document : Document} {depth : Nat} {path : Path}
    (h : d.HasTexts) :
    ofNode document (depth + 5) path (Value.mapping d.toYaml).node = pure d := by
  have hfields : d.toYaml =
      ([("extensions", .sequence (d.blocks.map Block.toYaml))] : List (String × Value)).map
        fun e => (.string e.1, e.2) := rfl
  have hblocks : ∀ path, document.list (depth + 4) path (Block.ofNode document)
      (Value.sequence (d.blocks.map Block.toYaml)).node = pure d.blocks := by
    intro path
    rw [Document.list_node _ Block.toYaml id d.blocks fun b hb _ => Block.ofNode_node (h b hb),
      List.map_id]
  rw [ofNode, hfields, Document.fields_node]
  simp [hblocks, Yaml.setOnce]

theorem ofText?_yamlText
    (h : d.HasTexts) :
    Document.ofText? d.yamlText = some (.written (.mapping d.toYaml)) := by
  have hkeys : ∀ e ∈ d.toYaml, isFieldName e.1 = true := by
    rw [toYaml]
    simp only [List.forall_mem_cons]
    exact ⟨isFieldName_of_mem (by decide), fun _ h => by cases h⟩
  have hvalues : ∀ e ∈ d.toYaml, Regular e.2 := by
    rw [toYaml]
    simp only [List.forall_mem_cons]
    exact ⟨regular_toYaml h, fun _ h => by cases h⟩
  exact Yaml.ofText?_documentText hkeys hvalues

theorem decodeText_yamlText
    (h : d.HasTexts) :
    Yaml.decodeText ofNode d.yamlText = .ok d := by
  rw [Yaml.decodeText, ofText?_yamlText h]
  exact Document.decode_eq_ok (ofNode_node h)

/--
A document of texts and booleans is read back from its text, with every block, row and cell as it
was.
-/
theorem ofYamlText_yamlText
    (h : d.HasTexts) :
    ofYamlText d.yamlText = .ok d :=
  decodeText_yamlText h

theorem ofYamlText_yamlText_awkward :
    let cells : List Value :=
      [.string "~", .string "", .string "true", .bool true, .string "007", .string "1e5",
        .string " a: b #\n\n", .string "\t\x00'\""]
    let d : DataExtension := ⟨[⟨"", "---", [cells, []]⟩, ⟨"- a", "null", []⟩]⟩
    d.HasTexts ∧ ofYamlText d.yamlText = .ok d := by
  intro cells d
  have htexts : d.HasTexts := by
    simp [d, cells, HasTexts, Block.HasTexts, IsTextOrBool]
  exact ⟨htexts, ofYamlText_yamlText htexts⟩

/-! ## Documents of maps -/

theorem hasTexts_ofModels (language : String) (models : ModelMap) :
    (ofModels language models).HasTexts := by
  intro b hb row hrow cell hcell
  obtain ⟨kind, -, rfl⟩ := List.mem_map.mp hb
  obtain ⟨e, -, hwritten⟩ := List.mem_filterMap.mp hrow
  exact Row.isTextOrBool_of_toCells? (Block.row?_eq_some_iff.mp hwritten) cell hcell

/-- The text of the document of a map is read as that document. -/
theorem ofYamlText_ofModels (language : String) (models : ModelMap) :
    ofYamlText (ofModels language models).yamlText = .ok (ofModels language models) :=
  decodeText_yamlText (hasTexts_ofModels language models)

/--
A map that is written as a document is read back as the map without what has no model, and nothing
is passed over.  What is read from any document has a model throughout, so it is read back from the
text that it is saved as, and is written as the same document again.
-/
theorem maps_and_documents_round_trip (language : String) :
    (∀ models : ModelMap,
      (ofModels language models).toModels = models.modeled ∧
        (ofModels language models).warnings = []) ∧
    ∀ d : DataExtension,
      (∀ e ∈ d.toModels.entries, e.2 ≠ .unmodeled) ∧
        ∃ saved, ofYamlText (ofModels language d.toModels).yamlText = .ok saved ∧
          saved.toModels = d.toModels ∧ saved.warnings = [] ∧
            ofModels language saved.toModels = saved := by
  refine ⟨fun models => ⟨toModels_ofModels language models, warnings_ofModels language models⟩,
    fun d => ⟨?_, ofModels language d.toModels, ofYamlText_ofModels language d.toModels, ?_,
      warnings_ofModels language d.toModels, ?_⟩⟩
  · intro e he
    exact ne_unmodeled_of_get?_toModels (ModelMap.get?_eq_some_iff.mpr he)
  · rw [toModels_ofModels, modeled_toModels]
  · rw [toModels_ofModels, ofModels_modeled]

end DataExtension

end LibraryModels
