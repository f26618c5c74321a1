import LibraryModels.DataExtension.Yaml
import LibraryModels.FileSystem

/-!
# Stored models

The models of a database are one data extension file. Saving writes the whole file, with the
directories above it; loading reads the whole file, and a file that is missing or cannot be read
has no models.
-/

namespace LibraryModels

/-- Where models of a language are kept. -/
structure ModelStore where
  language : String
deriving DecidableEq, Repr, Inhabited

namespace ModelStore

/-- The text that is written for a map. -/
def text (store : ModelStore) (models : ModelMap) : String :=
  (DataExtension.ofModels store.language models).yamlText

/-- The file system with the directories above a file. -/
def makeRoom (fs : FileSystem) (p : FilePath) : FileSystem × Except FileError Unit :=
  match p.parent? with
  | some parent => fs.makeDirectories parent
  | none => (fs, .ok ())

/-- Writes models to a file. -/
def save (store : ModelStore) (p : FilePath) (models : ModelMap) (fs : FileSystem) :
    FileSystem × Except StorageError Unit :=
  match makeRoom fs p with
  | (fs, .error e) => (fs, .error (.file e))
  | (fs, .ok ()) =>
    match fs.writeText p (store.text models) with
    | .ok fs => (fs, .ok ())
    | .error e => (fs, .error (.file e))

/-- Reads the document of a file. -/
def read (fs : FileSystem) (p : FilePath) : Except StorageError DataExtension :=
  match fs.readText p with
  | .error e => .error (.file e)
  | .ok text =>
    match DataExtension.ofYamlText text with
    | .ok d => .ok d
    | .error e => .error (.yaml e)

/-- The models of a file, if it can be read, and what was passed over. -/
def load (fs : FileSystem) (p : FilePath) : Option ModelMap × List DataExtension.Warning :=
  match read fs p with
  | .ok d => (some d.toModels, d.warnings)
  | .error _ => (none, [])

end ModelStore

end LibraryModels
