import LibraryModels.DataExtension
import LibraryModels.FilePath

/-!
# Where models are kept

The models of a database are one file below the workspace folder that is called `ql`. The name of
the file is the name of the database with separators replaced, so that it is a single part of a
path.
-/

namespace LibraryModels

namespace Workspace

/-- The name of the folder that holds the libraries. -/
def folderName : String := "ql"

/-- The end of the name of every model file. -/
def fileSuffix : String := ".model.yml"

/-- A character of a database name in a file name. -/
def flatChar (c : Char) : Char :=
  if c = '/' ∨ c = '\\' then '.' else c

/-- The name of the model file of a database. -/
def fileName (database : String) : String :=
  String.ofList (database.toList.map flatChar) ++ fileSuffix

/-- The directory of the model files of a language. -/
def directory (root : FilePath) (language : String) : FilePath :=
  (((root.entry language).entry "ql").entry "lib").entry "ext"

/-- The model file of a database. -/
def filePath (root : FilePath) (language database : String) : FilePath :=
  (directory root language).entry (fileName database)

/-- The first folder that is called `ql`. -/
def folder? (folders : List FilePath) : Option FilePath :=
  folders.find? fun folder => folder.fileName? = some folderName

/-- The model file of a database, if one of the folders can hold it. -/
def file? (folders : List FilePath) (language database : String) : Option FilePath :=
  (folder? folders).map fun root => filePath root language database

/-- The message if no folder can hold model files. -/
def noFolderText : String :=
  "No workspace folder '" ++ folderName ++ "' found"

end Workspace

end LibraryModels
