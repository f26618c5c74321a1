import LibraryModels.Config
import LibraryModels.Proofs.Yaml.Decode

/-!
# Settings read back

Settings that are written are read as they were.  A path may be any text: a text that would be read
as the absence of a path is not written plain.  What is left out of the text is what its absence
stands for.
-/

namespace LibraryModels

open Yaml (Decoder Document Node Path Regular Value isFieldName)

namespace Config

variable {temporary : FilePath} {c : Config} {d : Document} {depth : Nat} {path : Path}

/-! ## The text -/

/-- The settings that are written, by their keys. -/
def settings (c : Config) : List (String × Value) :=
  [("version", .number (.integer version)), ("codeql", pathYaml c.codeql)] ++
    (c.qlDir.toList.map fun dir => ("ql_dir", pathYaml dir)) ++
    [("query_storage_dir", pathYaml c.queryStorageDir)] ++
    (if c.workspaceFolders.isEmpty then []
      else [("workspace_folders", .sequence (c.workspaceFolders.map pathYaml))])

theorem toYaml_eq_map (c : Config) :
    c.toYaml = c.settings.map fun e => (.string e.1, e.2) := by
  simp only [toYaml, settings, List.map_append, List.map_map]
  split <;> rfl

theorem isFieldName_of_mem_keys
    {key : String}
    (h : key ∈ File.keys) :
    isFieldName (.string key) = true := by
  revert key
  decide

theorem regular_settings
    {e : String × Value}
    (h : e ∈ c.settings) :
    e.1 ∈ File.keys ∧ Regular e.2 := by
  have hversion : Regular (.number (.integer version)) :=
    .number (.of_allowsPlain (by decide) (by decide))
  have hpath : ∀ p, Regular (pathYaml p) := fun p => .string p.text
  have hfolders : Regular (.sequence (c.workspaceFolders.map pathYaml)) := by
    apply Regular.sequence_of_forall
    intro v hv
    obtain ⟨p, -, rfl⟩ := List.mem_map.1 hv
    exact hpath p
  rw [settings] at h
  simp only [List.mem_append, List.mem_cons, List.not_mem_nil, or_false, List.mem_map,
    or_assoc] at h
  rcases h with rfl | rfl | ⟨dir, -, rfl⟩ | rfl | h
  · exact ⟨by simp [File.keys], hversion⟩
  · exact ⟨by simp [File.keys], hpath c.codeql⟩
  · exact ⟨by simp [File.keys], hpath dir⟩
  · exact ⟨by simp [File.keys], hpath c.queryStorageDir⟩
  · split at h
    · exact absurd h List.not_mem_nil
    · rw [List.mem_singleton.1 h]
      exact ⟨by simp [File.keys], hfolders⟩

/-- The entries of a written mapping are known keys with paths, lists of paths or the version. -/
theorem regular_toYaml (c : Config) :
    ∀ e ∈ c.toYaml, isFieldName e.1 = true ∧ Regular e.2 := by
  intro e he
  rw [toYaml_eq_map] at he
  obtain ⟨setting, hsetting, rfl⟩ := List.mem_map.1 he
  obtain ⟨hkey, hvalue⟩ := regular_settings hsetting
  exact ⟨isFieldName_of_mem_keys hkey, hvalue⟩

theorem ofText?_yamlText (c : Config) :
    Document.ofText? c.yamlText = some (.written (.mapping c.toYaml)) :=
  Yaml.ofText?_documentText (fun e he => (c.regular_toYaml e he).1)
    fun e he => (c.regular_toYaml e he).2

/-! ## The fields -/

/-- What a file says that holds all settings. -/
def toFile (c : Config) : File where
  version := some version
  codeql := some c.codeql
  qlDir := c.qlDir
  queryStorageDir := some c.queryStorageDir
  workspaceFolders := c.workspaceFolders

theorem ofFile_toFile (c : Config) :
    ofFile temporary c.toFile = .ok c := rfl

theorem version_node :
    d.optional (d.natural path) (Value.number (.integer version)).node = pure (some version) :=
  rfl

theorem pathOfNode_node (p : FilePath) :
    File.pathOfNode d path (pathYaml p).node = pure p := by
  rw [File.pathOfNode, pathYaml, Document.string_node]
  rfl

theorem optionalPath_node (p : FilePath) :
    d.optional (File.pathOfNode d path) (pathYaml p).node = pure (some p) :=
  Document.optional_string (pathOfNode_node p)

theorem folders_node (folders : List FilePath) :
    d.list (depth + 1) path (fun _ place item => File.pathOfNode d place item)
      (Value.sequence (folders.map pathYaml)).node = pure folders := by
  rw [Document.list_node _ pathYaml id folders fun p _ _ => pathOfNode_node p, List.map_id]

theorem ofNode_node (c : Config) :
    File.ofNode d (depth + 2) path (Value.mapping c.toYaml).node = pure c.toFile := by
  rw [File.ofNode, toYaml_eq_map, Document.fields_node, settings]
  -- one case for each way in which a directory and folders are written or left out
  cases hlibraries : c.qlDir <;> by_cases hfolders : c.workspaceFolders = [] <;>
    simp [File.Draft.add, Yaml.setOnce, version_node, optionalPath_node, folders_node, toFile,
      hlibraries, hfolders]

/--
Settings are read back from their text with every path as it was, whatever texts the paths are and
whether or not there is a directory of the libraries and a workspace folder.
-/
theorem settings_read_back (temporary : FilePath) (c : Config) :
    ofYamlText c.yamlText temporary = .ok c := by
  have hfile : Yaml.decodeText File.ofNode c.yamlText = .ok c.toFile := by
    rw [Yaml.decodeText, ofText?_yamlText]
    exact Document.decode_eq_ok (ofNode_node c)
  rw [ofYamlText, hfile]
  exact ofFile_toFile c

end Config

end LibraryModels
