import LibraryModels.Codeql
import LibraryModels.CommandLine.Options
import LibraryModels.Config
import LibraryModels.ModelStore

/-!
# One run of the program

The options override the settings of the configuration file. The models that are stored for the
database are loaded, those of the stages are added, and the whole is stored again. Without a
workspace folder for models nothing is stored, and without a directory for the libraries nothing
is run.
-/

namespace LibraryModels.CommandLine

open Codeql (Host World)

/-- How serious a message is. -/
inductive Level where
  | info
  | warning
  | error
deriving DecidableEq, Repr

instance : Vocabulary Level where
  all := [.info, .warning, .error]
  name
    | .info => "INFO"
    | .warning => "WARN"
    | .error => "ERROR"

/-- What a run leaves behind: messages, the exit code, and the world. -/
structure Outcome where
  exitCode : Nat
  log : List (Level × String) := []
  world : World

/-- A failure with its causes, in a context. -/
structure Failure where
  context : Option String := none
  chain : List (Option String)

/-- The words for a failure and its causes. -/
def Failure.text (f : Failure) : String :=
  ": ".intercalate (f.context.toList ++ f.chain.filterMap id)

/--
The settings of a file, with those of the options in their place; workspace folders are added at
the end.
-/
def Options.override (o : Options) (c : Config) : Config where
  codeql := o.codeql.getD c.codeql
  qlDir := o.qlDir <|> c.qlDir
  queryStorageDir := o.queryStorageDir.getD c.queryStorageDir
  workspaceFolders := c.workspaceFolders ++ o.workspaceFolders

/-- Reads the configuration file. -/
def readConfig (files : FileSystem) (p : FilePath) : Except ConfigError Config :=
  match files.readText p with
  | .error e => .error (.file e)
  | .ok text => Config.ofYamlText text files.temporary

/-- The settings of a run. -/
def Options.settings (o : Options) (files : FileSystem) : Except Failure Config :=
  match o.config with
  | none => .ok (o.override (.defaults files.temporary))
  | some p =>
    match readConfig files p with
    | .ok c => .ok (o.override c)
    | .error e => .error ⟨some ("loading " ++ p.text), e.chain⟩

/-- The message of an event, if it has one. -/
def eventMessage? : Event → Option (Level × String)
  | .progress p => if p.isClear then none else some (.info, p.text)
  | .warning w => some (.warning, w.text)
  | _ => none

/-- The messages about the models after a run. -/
def countMessages (models : ModelMap) (existing : Nat) : List (Level × String) :=
  (Kind.all.map fun kind =>
    (.info, kind.name ++ " models: " ++ Number.integerText (models.ofKind kind).length)) ++
    [(.info, Number.integerText models.size ++ " models total (" ++ Number.integerText existing ++
      " before generation)")]

/-- The message that models cannot be stored. -/
def unsavedMessage : Level × String :=
  (.warning, ((StorageError.locationNotFound Workspace.noFolderText).text?.getD "") ++
    "; generated models will not be saved")

/-- The models to begin with, and what was passed over in loading them. -/
def initialModels (o : Options) (files : FileSystem) (modelFile : Option FilePath) :
    ModelMap × List (Level × String) :=
  match modelFile with
  | none => (ModelMap.empty, [])
  | some p =>
    if o.fresh then (ModelMap.empty, [])
    else
      let (models, warnings) := ModelStore.load files p
      (models.getD ModelMap.empty, warnings.map fun w => (.warning, w.text))

/-- The outcome of a run with a failure. -/
def failed (log : List (Level × String)) (f : Failure) (w : World) : Outcome :=
  ⟨1, log ++ [(.error, "Error: " ++ f.text)], w⟩

/-- The outcome of storing what a run generated. -/
def store (o : Options) (modelFile : Option FilePath) (models : ModelMap)
    (outcome : Except RunError Unit) (log : List (Level × String)) (w : World) : Outcome :=
  match modelFile with
  | none =>
    match outcome with
    | .ok () => ⟨0, log, w⟩
    | .error e => failed log ⟨none, e.chain⟩ w
  | some p =>
    let (files, warnings, outcome) :=
      keepModels (ModelStore.save ⟨o.language⟩ p) models outcome w.files
    let w := { w with files }
    let log := log ++ warnings.map fun w => (.warning, w.text)
    match outcome with
    | .ok () => ⟨0, log, w⟩
    | .error e => failed log ⟨some ("generating models for " ++ p.text), e.chain⟩ w

/-- The generator of a run. -/
def generator (host : Host) (o : Options) (c : Config) (qlDir : FilePath) :
    Generator World ModelMap where
  engine := Codeql.engine host c.codeql
  sink := Sink.map
  database := o.toDatabase
  qlDir := qlDir
  storageDir := c.queryStorageDir

/-- Runs with settings. -/
def runWith (host : Host) (o : Options) (c : Config) (qlDir : FilePath) (w : World) : Outcome :=
  let modelFile := Workspace.file? c.workspaceFolders o.language o.databaseName
  let warnings := if modelFile.isNone then [unsavedMessage] else []
  let (models, loadMessages) := initialModels o w.files modelFile
  let (outcome, s) := (generator host o c qlDir).run { engine := w, sink := models }
  let log := warnings ++ loadMessages ++ s.events.filterMap eventMessage? ++
    countMessages s.sink models.size
  store o modelFile s.sink outcome log s.engine

/-- Runs with options. -/
def run (host : Host) (o : Options) (w : World) : Outcome :=
  match o.settings w.files with
  | .error f => failed [] f w
  | .ok c =>
    match c.librariesDir with
    | .error e => failed [] ⟨none, e.chain⟩ w
    | .ok qlDir => runWith host o c qlDir w

/-- Runs with arguments; a mistake in them is an exit code of its own. -/
def runArguments (host : Host) (arguments : List String) (w : World) : Outcome :=
  match Options.ofArguments arguments with
  | .ok o => run host o w
  | .error .help => ⟨0, [], w⟩
  | .error .mistake => ⟨2, [], w⟩

end LibraryModels.CommandLine
