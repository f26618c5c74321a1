import LibraryModels.ModelStore
import LibraryModels.Proofs.DataExtension.Yaml
import LibraryModels.Proofs.FileSystem

/-!
# Models saved and loaded

A save that succeeds is loaded as the models that were saved, except for those without a model,
whatever the file system held before.
-/

namespace LibraryModels

namespace ModelStore

variable {store : ModelStore} {models : ModelMap} {p : FilePath} {fs fs' : FileSystem}

/-- A save that succeeds has written the text of the models as its last step. -/
theorem exists_writeText_of_save
    (h : store.save p models fs = (fs', .ok ())) :
    ∃ room, makeRoom fs p = (room, .ok ()) ∧
      room.writeText p (store.text models) = .ok fs' := by
  unfold save at h
  rcases hroom : makeRoom fs p with ⟨room, made⟩
  rw [hroom] at h
  cases made with
  | error e => cases h
  | ok u =>
      cases hwrite : room.writeText p (store.text models) with
      | error e =>
          simp only [hwrite] at h
          cases h
      | ok written =>
          simp only [hwrite] at h
          cases h
          exact ⟨room, rfl, hwrite⟩

/-- The directories above a file are there or can be made, and no directory is in its place. -/
def Writable (fs : FileSystem) (p : FilePath) : Prop :=
  ∃ room place, makeRoom fs p = (room, .ok ()) ∧
    room.target p = .ok (.named place false) ∧ room.entry? place ≠ some .directory

theorem read_of_save
    (h : store.save p models fs = (fs', .ok ())) :
    read fs' p = .ok (DataExtension.ofModels store.language models) := by
  obtain ⟨room, _, hwrite⟩ := exists_writeText_of_save h
  have hread := FileSystem.readText_of_writeText hwrite
  have hdocument := DataExtension.ofYamlText_ofModels store.language models
  unfold read
  rw [hread]
  simp only [text, hdocument]

/-- After a save the file has the bytes of the text of the models. -/
theorem readBytes_of_save
    (h : store.save p models fs = (fs', .ok ())) :
    fs'.readBytes p = .ok (Text.bytes (store.text models)) := by
  obtain ⟨room, _, hwrite⟩ := exists_writeText_of_save h
  exact FileSystem.readBytes_of_writeBytes hwrite

/-- What was saved is loaded, and nothing is passed over. -/
theorem load_of_save
    (h : store.save p models fs = (fs', .ok ())) :
    load fs' p = (some models.modeled, []) := by
  unfold load
  rw [read_of_save h]
  simp only [DataExtension.toModels_ofModels, DataExtension.warnings_ofModels]

/-- The models of a file, none if it is missing or cannot be read. -/
def modelsOf (fs : FileSystem) (p : FilePath) : ModelMap :=
  (load fs p).1.getD ModelMap.empty

theorem modelsOf_of_save
    (h : store.save p models fs = (fs', .ok ())) :
    modelsOf fs' p = models.modeled := by
  rw [modelsOf, load_of_save h]
  rfl

/-- Everything that is loaded has a model. -/
theorem modeled_modelsOf (fs : FileSystem) (p : FilePath) :
    (modelsOf fs p).modeled = modelsOf fs p := by
  unfold modelsOf load
  cases read fs p with
  | error e => rfl
  | ok d => exact DataExtension.modeled_toModels d

end ModelStore

end LibraryModels
