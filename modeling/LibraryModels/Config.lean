import LibraryModels.Failure
import LibraryModels.Workspace
import LibraryModels.Yaml.Print.Document

/-!
# Configuration

A configuration is a YAML mapping with a version, which has to be 1, and paths. Paths that are
left out or absent have defaults, except for the directory of the libraries, which may be found
among the workspace folders. By default query runs leave their results in the directory for
temporary files. Keys other than the five known ones are refused.
-/

namespace LibraryModels

open Yaml (Decoder Document Node Value)

/-- Where query runs leave their results by default. -/
def Config.storageDirIn (temporary : FilePath) : FilePath :=
  temporary.entry "flowmodel-queries"

/-- The settings of a run. -/
structure Config where
  /-- The executable that runs queries. -/
  codeql : FilePath := ⟨"codeql"⟩
  /-- Where the queries of all languages are. -/
  qlDir : Option FilePath := none
  /-- Where query runs leave their results. -/
  queryStorageDir : FilePath := Config.storageDirIn .usualTemporary
  workspaceFolders : List FilePath := []
deriving DecidableEq, Repr, Inhabited

/-- What a configuration file says, with everything optional. -/
structure Config.File where
  version : Option Nat := none
  codeql : Option FilePath := none
  qlDir : Option FilePath := none
  queryStorageDir : Option FilePath := none
  workspaceFolders : List FilePath := []
deriving DecidableEq, Repr, Inhabited

namespace Config

/-- The version of configuration files. -/
def version : Nat := 1

/-- The settings where nothing is given. -/
def defaults (temporary : FilePath) : Config where
  queryStorageDir := storageDirIn temporary

/-- The settings of a file; the version is looked at first. -/
def ofFile (temporary : FilePath) (file : File) : Except ConfigError Config :=
  match file.version with
  | none => .error .missingVersion
  | some found =>
    if found = version then
      let defaults := defaults temporary
      .ok
        { codeql := file.codeql.getD defaults.codeql
          qlDir := file.qlDir
          queryStorageDir := file.queryStorageDir.getD defaults.queryStorageDir
          workspaceFolders := file.workspaceFolders }
    else .error (.unsupportedVersion found [version])

/--
The directory of the libraries: the given one, or else the workspace folder that holds model
files.
-/
def librariesDir (c : Config) : Except ConfigError FilePath :=
  match c.qlDir <|> Workspace.folder? c.workspaceFolders with
  | some dir => .ok dir
  | none => .error (.missingSetting "ql_dir")

namespace File

/-- The keys of a configuration file, in order. -/
def keys : List String :=
  ["version", "codeql", "ql_dir", "query_storage_dir", "workspace_folders"]

/-- The fields of a file that have been read so far; one that was given may be absent. -/
structure Draft where
  version : Option (Option Nat) := none
  codeql : Option (Option FilePath) := none
  qlDir : Option (Option FilePath) := none
  queryStorageDir : Option (Option FilePath) := none
  workspaceFolders : Option (List FilePath) := none

/-- Reads a path. -/
def pathOfNode (d : Document) (place : Yaml.Path) (node : Node Nat) : Decoder FilePath :=
  FilePath.mk <$> d.string "path string" place node

/-- Takes one field of a file. -/
def Draft.add (d : Document) (path : Yaml.Path) (depth : Nat) (draft : Draft) (key : String)
    (place : Yaml.Path) (item : Node Nat) : Decoder Draft := do
  let optionalPath := d.optional (pathOfNode d place) item
  match key with
  | "version" =>
    let version := d.optional (d.natural place) item
    return { draft with version := ← Yaml.setOnce path key draft.version version }
  | "codeql" => return { draft with codeql := ← Yaml.setOnce path key draft.codeql optionalPath }
  | "ql_dir" => return { draft with qlDir := ← Yaml.setOnce path key draft.qlDir optionalPath }
  | "query_storage_dir" =>
    return { draft with
      queryStorageDir := ← Yaml.setOnce path key draft.queryStorageDir optionalPath }
  | "workspace_folders" =>
    return { draft with
      workspaceFolders := ←
        Yaml.setOnce path key draft.workspaceFolders
          (d.list depth place (fun _ place item => pathOfNode d place item) item) }
  | _ => Yaml.faultAt path (.unknownField key keys)

/-- Reads the root of a configuration file. -/
def ofNode (d : Document) (depth : Nat) (path : Yaml.Path) (node : Node Nat) : Decoder File := do
  let draft ← d.fields depth path "struct ConfigFileV1" (Draft.add d path) ({} : Draft) node
  return {
    version := draft.version.getD none
    codeql := draft.codeql.getD none
    qlDir := draft.qlDir.getD none
    queryStorageDir := draft.queryStorageDir.getD none
    workspaceFolders := draft.workspaceFolders.getD [] }

end File

/-- Reads settings from a text. -/
def ofYamlText (s : String) (temporary : FilePath := .usualTemporary) :
    Except ConfigError Config :=
  match Yaml.decodeText File.ofNode s with
  | .ok file => ofFile temporary file
  | .error e => .error (.yaml e)

/-- A path as a YAML value. -/
def pathYaml (p : FilePath) : Value :=
  .string p.text

/-- The mapping of settings; an absent directory and an empty list are left out. -/
def toYaml (c : Config) : List (Value × Value) :=
  [(.string "version", .number (.integer version)), (.string "codeql", pathYaml c.codeql)] ++
    (c.qlDir.toList.map fun dir => (.string "ql_dir", pathYaml dir)) ++
    [(.string "query_storage_dir", pathYaml c.queryStorageDir)] ++
    (if c.workspaceFolders.isEmpty then []
      else [(.string "workspace_folders", .sequence (c.workspaceFolders.map pathYaml))])

/-- The text of settings. -/
def yamlText (c : Config) : String :=
  Yaml.Print.documentText c.toYaml

end Config

end LibraryModels
