import LibraryModels.FileSystem
import LibraryModels.Generator
import LibraryModels.Execution
import LibraryModels.Json.Bytes
import LibraryModels.Results.Json
import LibraryModels.Text.Blank

/-!
# Running queries with the `codeql` executable

A query is run by one process and its results are read by others. The lines of the error output
become reports; some lines tell how far the query is, and reports never go back. If the process
fails, its last lines are the message, and a line that begins with `ERROR:` means that the query
did not compile.
-/

namespace LibraryModels

open Text (occursIn trimStart)

namespace Codeql

/-- How many lines of the error output are kept for messages. -/
def keptLines : Nat := 20

/-- Whether a text begins with a word. -/
def beginsWith (word : String) (cs : List Char) : Bool :=
  word.toList.isPrefixOf cs

/-- How far a query is if a line tells it. -/
def phase? (line : String) : Option Nat :=
  let cs := trimStart line.toList
  if beginsWith "Compiling" cs then some (Progress.stageSteps / 10)
  else if occursIn "Evaluation done".toList cs then some (Progress.stageSteps * 9 / 10)
  else if beginsWith "Starting evaluation" cs ∨ occursIn " eval ".toList cs then
    some (Progress.stageSteps / 2)
  else none

/-- Whether a line says that a query does not compile. -/
def isCompileFault (line : String) : Bool :=
  beginsWith "ERROR:" (trimStart line.toList)

/-- The step after a line: the greatest that was told so far. -/
def stepAfter (step : Nat) (line : String) : Nat :=
  match phase? line with
  | some s => max step s
  | none => step

/-- The report before a query runs. -/
def startReport : Report := ⟨0, "Compiling and running query"⟩

/-- The report after a query has run. -/
def endReport : Report := ⟨Progress.stageSteps, "Query finished"⟩

/-- How looking at the lines of a process ended. -/
inductive Watch where
  /-- All lines were seen. -/
  | complete
  /-- Cancellation was requested. -/
  | stopped
  | broken (fault : Text.Utf8Fault)
deriving DecidableEq, Repr

/-- Looks at lines; `stops` says whether cancellation is requested when a report is seen. -/
def watch (stops : Report → Bool) (step : Nat) :
    List (Except Text.Utf8Fault String) → List Report × Watch
  | [] => ([], .complete)
  | .error fault :: _ => ([], .broken fault)
  | .ok line :: rest =>
    let report : Report := ⟨stepAfter step line, line⟩
    if stops report then ([report], .stopped)
    else
      let (reports, last) := watch stops report.step rest
      (report :: reports, last)

/-- What is kept of the lines of a process in case that it fails. -/
structure Kept where
  /-- The last lines. -/
  lines : List String := []
  /-- Whether any line so far said that the query does not compile. -/
  compileFault : Bool := false
deriving DecidableEq, Repr

/-- Keeps one more line, and lets the oldest go if there are as many as are kept. -/
def Kept.add (kept : Kept) (line : String) : Kept where
  lines := (if kept.lines.length = keptLines then kept.lines.tail else kept.lines) ++ [line]
  compileFault := kept.compileFault || isCompileFault line

/-- What is kept of some lines. -/
def Kept.ofLines (lines : List String) : Kept :=
  lines.foldl Kept.add {}

/-- The failure of a process that ran a query. -/
def queryFailure (query : FilePath) (status : ExitStatus) (reports : List Report) : RunError :=
  let kept := Kept.ofLines (reports.map (·.message))
  let message :=
    query.text ++ " exited with " ++ status.text ++ ": " ++ "\n".intercalate kept.lines
  if kept.compileFault then .queryCompilation message
  else .queryEngine message

/-- The reply of a query whose process was started; `results` is where it leaves its results. -/
def queryReply (stops : Report → Bool) (query results : FilePath) (p : Execution) : QueryReply :=
  let cancelled (reports : List Report) : QueryReply :=
    ⟨startReport :: reports, [.cancellingQuery query], ⟨.error .cancelled, true⟩⟩
  if stops startReport then cancelled []
  else
    let (reports, last) := watch stops 0 p.errorLines
    match last, p.ending with
    | .stopped, _ => cancelled reports
    | .broken fault, _ => ⟨startReport :: reports, [], ⟨.error (.file (.brokenLine fault)), false⟩⟩
    | .complete, none => cancelled reports
    | .complete, some status =>
      if status.isSuccess then
        ⟨startReport :: (reports ++ [endReport]), [], ⟨.ok results, stops endReport⟩⟩
      else ⟨startReport :: reports, [], ⟨.error (queryFailure query status reports), false⟩⟩

/--
What the executable works with: files, the arguments of its calls so far, and how many runs there
were.
-/
structure World where
  files : FileSystem := {}
  calls : List (List String) := []
  runs : Nat := 0
deriving DecidableEq, Repr, Inhabited

/-- The surroundings of the executable. -/
structure Host where
  /-- Starts the executable with arguments. -/
  start : World → FilePath → List String → Except FileError Execution
  /-- The name of the directory of a run, by its number. -/
  runName : Nat → String
  /-- Whether cancellation is requested when a report is seen. -/
  stops : Report → Bool := fun _ => false

/-- Starts the executable, unless an argument cannot be passed on. -/
def launch (host : Host) (codeql : FilePath) (arguments : List String) (w : World) :
    Except FileError Execution × World :=
  if (codeql.text :: arguments).any fun s => '\x00' ∈ s.toList then (.error .nulInArgument, w)
  else
    match host.start w codeql arguments with
    | .ok p => (.ok p, { w with calls := w.calls ++ [arguments] })
    | .error e => (.error e, w)

/-- The arguments for running a query. -/
def runArguments (database query results : FilePath) : List String :=
  ["query", "run", "--database=" ++ database.text, "--output=" ++ results.text, "--", query.text]

/-- Runs a query in a directory of its own. -/
def run (host : Host) (codeql : FilePath) (database : Database) (query : Query) (cancelled : Bool)
    (w : World) : QueryReply × World :=
  if cancelled then (⟨[], [], ⟨.error .cancelled, false⟩⟩, w)
  else
    let directory := query.storageDir.entry (host.runName w.runs)
    let results := directory.entry "results.bqrs"
    match w.files.makeDirectories directory with
    | (files, .error e) =>
      (⟨[], [], ⟨.error (.file e), false⟩⟩, { w with files, runs := w.runs + 1 })
    | (files, .ok ()) =>
      match launch host codeql (runArguments database.path query.path results)
          { w with files, runs := w.runs + 1 } with
      | (.error e, w) => (⟨[startReport], [], ⟨.error (.file e), host.stops startReport⟩⟩, w)
      | (.ok p, w) => (queryReply host.stops query.path results p, w)

/-- The reply of a process that writes JSON; nobody asks whether to go on waiting for it. -/
def jsonReply {α : Type} (decode : String → Except Json.Error α) (p : Execution) : Reply α :=
  if p.status.isSuccess then
    match decode (Json.textOfBytes p.stdout) with
    | .ok a => ⟨.ok a, false⟩
    | .error e => ⟨.error (.json e), false⟩
  else
    let message := String.ofList (Text.trim (Text.Utf8.decodeLossy p.stderr).toList)
    ⟨.error (.decode ("codeql exited with " ++ p.status.text ++ ": " ++ message)), false⟩

/-- Runs the executable for JSON. -/
def askJson {α : Type} (host : Host) (codeql : FilePath) (decode : String → Except Json.Error α)
    (arguments : List String) (w : World) : Reply α × World :=
  match launch host codeql arguments w with
  | (.error e, w) => (⟨.error (.file e), false⟩, w)
  | (.ok p, w) => (jsonReply decode p, w)

/-- The arguments for asking what a query left behind. -/
def infoArguments (results : FilePath) : List String :=
  ["bqrs", "info", "--format=json", "--", results.text]

/-- The arguments for reading a result set. -/
def decodeArguments (results : FilePath) (resultSet : String) : List String :=
  ["bqrs", "decode", "--format=json", "--entities=url,string", "--result-set=" ++ resultSet, "--",
    results.text]

/-- The engine of an executable. -/
def engine (host : Host) (codeql : FilePath) : Engine World where
  run := run host codeql
  info results := askJson host codeql ResultsInfo.ofJsonText (infoArguments results)
  decode results resultSet :=
    askJson host codeql Table.ofJsonText (decodeArguments results resultSet)

end Codeql

end LibraryModels
