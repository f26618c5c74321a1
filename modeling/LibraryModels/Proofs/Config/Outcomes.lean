import LibraryModels.Proofs.Config.Reading

/-!
# What comes of a configuration file

Only of a text that is read as a file does the version count: without one, or with another one than
1, the file is refused, and otherwise the settings are what the file says, with defaults for the
executable and the storage directory.  An unknown key is found before, wherever it stands.
-/

namespace LibraryModels

open Yaml (Content Document Node)

namespace Config

variable {d : Document} {fields : List (String × Node Nat)} {file : File} {c : Config} {s : String}
variable {temporary : FilePath}

/-! ## Files -/

/-- The settings of a run that a file stands for. -/
def File.settled (temporary : FilePath) (file : File) : Config :=
  let defaults := defaults temporary
  { codeql := file.codeql.getD defaults.codeql
    qlDir := file.qlDir
    queryStorageDir := file.queryStorageDir.getD defaults.queryStorageDir
    workspaceFolders := file.workspaceFolders }

theorem ofFile_of_no_version
    (h : file.version = none) :
    ofFile temporary file = .error .missingVersion := by
  rw [ofFile, h]

theorem ofFile_of_other_version
    {found : Nat}
    (h : file.version = some found) (hfound : found ≠ 1) :
    ofFile temporary file = .error (.unsupportedVersion found [1]) := by
  rw [ofFile, h]
  exact if_neg hfound

theorem ofFile_of_version
    (h : file.version = some 1) :
    ofFile temporary file = .ok (file.settled temporary) := by
  rw [ofFile, h]
  rfl

/-! ## Fields -/

/-- The fields of a document are read as a file: each value says something for its setting. -/
def Decodes (d : Document) (fields : List (String × Node Nat)) : Prop :=
  HasFields d fields ∧ WellKeyed fields ∧ ∀ k : Setting, ∃ v, k.Given d fields v

theorem decodes_iff :
    Decodes d fields ↔
      HasFields d fields ∧ WellKeyed fields ∧ ∃ file, Describes d fields file := by
  refine and_congr_right fun _ => and_congr_right fun _ => ?_
  constructor
  · intro h
    choose v hv using h
    refine ⟨⟨v .version, v .codeql, v .qlDir, v .queryStorageDir, v .workspaceFolders⟩, ?_⟩
    intro k
    cases k <;> exact hv _
  · rintro ⟨file, hfile⟩ k
    exact ⟨file.get k, hfile k⟩

/-- There is nothing in an empty document to be refused, and no version. -/
theorem decodes_of_isEmpty
    (h : IsEmpty d) :
    Decodes d [] ∧ Setting.version.Given d [] none := by
  have hblank : ∀ k : Setting, k.Given d [] k.blank := fun k => ⟨none, List.not_mem_nil, rfl⟩
  have hkeyed : WellKeyed [] := ⟨nofun, List.nodup_nil⟩
  exact ⟨⟨.inr ⟨h, rfl⟩, hkeyed, fun k => ⟨k.blank, hblank k⟩⟩, hblank .version⟩

/-- A document is a mapping, and the key of some entry is none of the known ones. -/
def HasUnknownKey (d : Document) : Prop :=
  ∃ tag entries, d.held? d.root = some (.mapping tag entries) ∧
    ∃ entry ∈ entries, ∀ name ∈ File.keys, ¬d.Holds Content.IsText entry.1 name

theorem not_decodes_of_hasUnknownKey
    (h : HasUnknownKey d) :
    ¬Decodes d fields := by
  obtain ⟨tag, entries, hheld, entry, hentry, hunknown⟩ := h
  rintro ⟨⟨tag', entries', hheld', hfields⟩ | ⟨⟨c, hheld', hblank⟩, -⟩, hkeyed, -⟩
  · cases hheld.symm.trans hheld'
    obtain ⟨i, rfl⟩ := List.mem_iff_get.1 hentry
    obtain ⟨hlength, hall⟩ := List.forall₂_iff_get.1 hfields
    have hi : i.1 < fields.length := hlength ▸ i.2
    exact hunknown _ (hkeyed.known _ (List.get_mem fields ⟨i.1, hi⟩)) (hall i.1 i.2 hi).1
  · cases hheld.symm.trans hheld'
    cases hblank

/-- The settings of a run are those that the fields give, and defaults for two of the others. -/
structure Settles (temporary : FilePath) (d : Document) (fields : List (String × Node Nat))
    (c : Config) : Prop where
  codeql : ∃ given, Setting.codeql.Given d fields given ∧
    c.codeql = given.getD (defaults temporary).codeql
  qlDir : Setting.qlDir.Given d fields c.qlDir
  queryStorageDir : ∃ given, Setting.queryStorageDir.Given d fields given ∧
    c.queryStorageDir = given.getD (defaults temporary).queryStorageDir
  workspaceFolders : Setting.workspaceFolders.Given d fields c.workspaceFolders

theorem Describes.settles
    (h : Describes d fields file) :
    Settles temporary d fields (file.settled temporary) where
  codeql := ⟨file.codeql, h .codeql, rfl⟩
  qlDir := h .qlDir
  queryStorageDir := ⟨file.queryStorageDir, h .queryStorageDir, rfl⟩
  workspaceFolders := h .workspaceFolders

theorem Settles.exists_describes
    {v : Option Nat}
    (h : Settles temporary d fields c) (hversion : Setting.version.Given d fields v) :
    ∃ file, Describes d fields file ∧ file.version = v ∧ file.settled temporary = c := by
  obtain ⟨executable, hexecutable, hcodeql⟩ := h.codeql
  obtain ⟨storage, hstorage, hqueryStorageDir⟩ := h.queryStorageDir
  refine ⟨⟨v, executable, c.qlDir, storage, c.workspaceFolders⟩, ?_, rfl, ?_⟩
  · intro k
    cases k with
    | version => exact hversion
    | codeql => exact hexecutable
    | qlDir => exact h.qlDir
    | queryStorageDir => exact hstorage
    | workspaceFolders => exact h.workspaceFolders
  · rw [File.settled, ← hcodeql, ← hqueryStorageDir]

/-! ## Texts -/

/-- The fields of a document that is read as a file give its version. -/
theorem exists_file_iff {v : Option Nat} :
    (∃ file, Yaml.decodeText File.ofNode s = .ok file ∧ file.version = v) ↔
      ∃ d fields, Document.ofText? s = some d ∧ Decodes d fields ∧
        Setting.version.Given d fields v := by
  constructor
  · rintro ⟨file, hfile, rfl⟩
    obtain ⟨d, hd, fields, hfields, hkeyed, hgiven⟩ := decodeText_eq_ok_iff.1 hfile
    exact ⟨d, fields, hd, decodes_iff.2 ⟨hfields, hkeyed, file, hgiven⟩, hgiven .version⟩
  · rintro ⟨d, fields, hd, hdecodes, hversion⟩
    obtain ⟨hfields, hkeyed, file, hgiven⟩ := decodes_iff.1 hdecodes
    refine ⟨file, decodeText_eq_ok_iff.2 ⟨d, hd, fields, hfields, hkeyed, hgiven⟩, ?_⟩
    exact (hgiven .version).unique hkeyed.once hversion

theorem ofYamlText_of_file
    (h : Yaml.decodeText File.ofNode s = .ok file) :
    ofYamlText s temporary = ofFile temporary file := by
  rw [ofYamlText, h]

/-- A text is not read as a file, or else the version of the file says what comes of it. -/
theorem ofYamlText_cases (s : String) (temporary : FilePath) :
    (∃ cause, Yaml.decodeText File.ofNode s = .error cause ∧
        ofYamlText s temporary = .error (.yaml cause)) ∨
      ∃ file, Yaml.decodeText File.ofNode s = .ok file ∧
        (file.version = none ∧ ofYamlText s temporary = .error .missingVersion ∨
          (∃ found, file.version = some found ∧ found ≠ 1 ∧
            ofYamlText s temporary = .error (.unsupportedVersion found [1])) ∨
          file.version = some 1 ∧ ofYamlText s temporary = .ok (file.settled temporary)) := by
  cases hfile : Yaml.decodeText File.ofNode s with
  | error cause =>
      refine .inl ⟨cause, rfl, ?_⟩
      rw [ofYamlText, hfile]
  | ok file =>
      refine .inr ⟨file, rfl, ?_⟩
      rw [ofYamlText_of_file hfile]
      cases hversion : file.version with
      | none => exact .inl ⟨rfl, ofFile_of_no_version hversion⟩
      | some found =>
          by_cases hfound : found = 1
          · subst hfound
            exact .inr (.inr ⟨rfl, ofFile_of_version hversion⟩)
          · exact .inr (.inl ⟨found, rfl, hfound, ofFile_of_other_version hversion hfound⟩)

theorem ofYamlText_eq_missingVersion_iff :
    ofYamlText s temporary = .error .missingVersion ↔
      ∃ d fields, Document.ofText? s = some d ∧ Decodes d fields ∧
        Setting.version.Given d fields none := by
  rw [← exists_file_iff]
  constructor
  · intro h
    rcases ofYamlText_cases s temporary with
      ⟨cause, -, hs⟩ | ⟨file, hfile, ⟨hversion, -⟩ | ⟨found, -, -, hs⟩ | ⟨-, hs⟩⟩
    · cases hs.symm.trans h
    · exact ⟨file, hfile, hversion⟩
    · cases hs.symm.trans h
    · cases hs.symm.trans h
  · rintro ⟨file, hfile, hversion⟩
    rw [ofYamlText_of_file hfile, ofFile_of_no_version hversion]

theorem ofYamlText_eq_unsupportedVersion_iff {found : Nat} {supported : List Nat} :
    ofYamlText s temporary = .error (.unsupportedVersion found supported) ↔
      (∃ d fields, Document.ofText? s = some d ∧ Decodes d fields ∧
        Setting.version.Given d fields (some found)) ∧ found ≠ 1 ∧ supported = [1] := by
  rw [← exists_file_iff]
  constructor
  · intro h
    rcases ofYamlText_cases s temporary with
      ⟨cause, -, hs⟩ | ⟨file, hfile, ⟨-, hs⟩ | ⟨v, hversion, hv, hs⟩ | ⟨-, hs⟩⟩
    · cases hs.symm.trans h
    · cases hs.symm.trans h
    · cases hs.symm.trans h
      exact ⟨⟨file, hfile, hversion⟩, hv, rfl⟩
    · cases hs.symm.trans h
  · rintro ⟨⟨file, hfile, hversion⟩, hfound, rfl⟩
    rw [ofYamlText_of_file hfile, ofFile_of_other_version hversion hfound]

theorem exists_ofYamlText_eq_yaml_iff :
    (∃ cause, ofYamlText s temporary = .error (.yaml cause)) ↔
      ¬∃ d fields, Document.ofText? s = some d ∧ Decodes d fields := by
  have hread : (∃ file, Yaml.decodeText File.ofNode s = .ok file) ↔
      ∃ d fields, Document.ofText? s = some d ∧ Decodes d fields := by
    constructor
    · rintro ⟨file, hfile⟩
      obtain ⟨d, fields, hd, hdecodes, -⟩ := exists_file_iff.1 ⟨file, hfile, rfl⟩
      exact ⟨d, fields, hd, hdecodes⟩
    · rintro ⟨d, fields, hd, hdecodes⟩
      obtain ⟨v, hversion⟩ := hdecodes.2.2 .version
      obtain ⟨file, hfile, -⟩ := exists_file_iff.2 ⟨d, fields, hd, hdecodes, hversion⟩
      exact ⟨file, hfile⟩
  rw [← hread]
  rcases ofYamlText_cases s temporary with
    ⟨cause, hfile, hs⟩ | ⟨file, hfile, ⟨-, hs⟩ | ⟨found, -, -, hs⟩ | ⟨-, hs⟩⟩ <;>
    simp [hfile, hs]

theorem ofYamlText_eq_ok_iff :
    ofYamlText s temporary = .ok c ↔
      ∃ d fields, Document.ofText? s = some d ∧ IsMapping d fields ∧ WellKeyed fields ∧
        Setting.version.Given d fields (some 1) ∧ Settles temporary d fields c := by
  constructor
  · intro h
    rcases ofYamlText_cases s temporary with
      ⟨cause, -, hs⟩ | ⟨file, hfile, ⟨-, hs⟩ | ⟨found, -, -, hs⟩ | ⟨hversion, hs⟩⟩
    · cases hs.symm.trans h
    · cases hs.symm.trans h
    · cases hs.symm.trans h
    · cases hs.symm.trans h
      obtain ⟨d, hd, fields, hfields, hkeyed, hgiven⟩ := decodeText_eq_ok_iff.1 hfile
      have hone : Setting.version.Given d fields (some 1) := hversion ▸ hgiven .version
      have hmapping : IsMapping d fields := by
        rcases hfields with hmapping | ⟨hempty, rfl⟩
        · exact hmapping
        · cases hone.unique hkeyed.once (decodes_of_isEmpty hempty).2
      exact ⟨d, fields, hd, hmapping, hkeyed, hone, hgiven.settles⟩
  · rintro ⟨d, fields, hd, hmapping, hkeyed, hone, hsettles⟩
    obtain ⟨file, hgiven, hversion, rfl⟩ := hsettles.exists_describes hone
    have hfile := decodeText_eq_ok_iff.2 ⟨d, hd, fields, .inl hmapping, hkeyed, hgiven⟩
    rw [ofYamlText_of_file hfile, ofFile_of_version hversion]

/--
What comes of any text as a configuration file.  Settings are read exactly from a mapping whose
keys are known and occur once, whose version is the number 1, and whose values say something for
their settings; they are the paths that are given, the executable and the storage directory are
the default ones where no path or an absent one is given, and there is no directory of the
libraries and no workspace folder then.  A mapping with an unknown key is not read, whatever the
other entries say.  A document that is read without a version, and one with another version, are
refused for that reason only, and every other text is refused because it is not read.
-/
theorem ofYamlText_outcomes (s : String) (temporary : FilePath) :
    (∀ c, ofYamlText s temporary = .ok c ↔
      ∃ d fields, Document.ofText? s = some d ∧ IsMapping d fields ∧ WellKeyed fields ∧
        Setting.version.Given d fields (some 1) ∧ Settles temporary d fields c) ∧
    (∀ d, Document.ofText? s = some d → HasUnknownKey d →
      ∃ cause, ofYamlText s temporary = .error (.yaml cause)) ∧
    (∀ d, Document.ofText? s = some d → IsEmpty d →
      ofYamlText s temporary = .error .missingVersion) ∧
    (ofYamlText s temporary = .error .missingVersion ↔
      ∃ d fields, Document.ofText? s = some d ∧ Decodes d fields ∧
        Setting.version.Given d fields none) ∧
    (∀ found supported, ofYamlText s temporary = .error (.unsupportedVersion found supported) ↔
      (∃ d fields, Document.ofText? s = some d ∧ Decodes d fields ∧
        Setting.version.Given d fields (some found)) ∧ found ≠ 1 ∧ supported = [1]) ∧
    ((∃ cause, ofYamlText s temporary = .error (.yaml cause)) ↔
      ¬∃ d fields, Document.ofText? s = some d ∧ Decodes d fields) := by
  refine ⟨fun c => ofYamlText_eq_ok_iff, ?_, ?_, ofYamlText_eq_missingVersion_iff,
    fun found supported => ofYamlText_eq_unsupportedVersion_iff, exists_ofYamlText_eq_yaml_iff⟩
  · intro d hd hunknown
    rw [exists_ofYamlText_eq_yaml_iff]
    rintro ⟨d', fields, hd', hdecodes⟩
    rw [hd, Option.some.injEq] at hd'
    subst hd'
    exact not_decodes_of_hasUnknownKey hunknown hdecodes
  · intro d hd hempty
    exact ofYamlText_eq_missingVersion_iff.2 ⟨d, [], hd, decodes_of_isEmpty hempty⟩

end Config

end LibraryModels
