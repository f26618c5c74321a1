import LibraryModels.DataExtension
import LibraryModels.Failure
import LibraryModels.Progress
import LibraryModels.Results
import LibraryModels.Stage

/-!
# Generating models

A run goes through the four stages. A stage runs its query, looks at what the query left behind,
and hands the models that the rows describe to a sink. A stage whose query left no single result
set is skipped; any failure stops the run. A request to cancel is looked at between stages, so
what a stage has begun is finished. The engine that runs queries and the sink have states of their
own, and everything that can be seen of a run is an event.
-/

namespace LibraryModels

/-- The database that queries run against. -/
structure Database where
  name : String
  language : String
  path : FilePath
deriving DecidableEq, Repr, Inhabited

/-- A query to run, and the directory below which it may leave its results. -/
structure Query where
  path : FilePath
  storageDir : FilePath
deriving DecidableEq, Repr, Inhabited

/-- What is worth a warning in a run. -/
inductive RunWarning where
  | cancellingQuery (path : FilePath)
  | resultSets (count : Nat)
  | skippedStage (kind : Kind)
  | droppedRows (dropped total : Nat) (kind : Kind)
  | savingCancelled (count : Nat)
deriving DecidableEq, Repr

/-- The words for a warning. -/
def RunWarning.text : RunWarning → String
  | .cancellingQuery path => "Cancelling query " ++ path.text
  | .resultSets count => "Expected exactly one result set, got " ++ Number.integerText count
  | .skippedStage kind => "Skipping " ++ kind.name ++ " stage: no usable results"
  | .droppedRows dropped total kind => DataExtension.droppedText dropped total kind.name
  | .savingCancelled count =>
    "Saving " ++ Number.integerText count ++ " models collected before cancellation"

/-- How a call ends, and whether cancellation is requested while it is at work. -/
structure Reply (α : Type) where
  result : Except RunError α
  cancels : Bool := false

/-- A step that an engine reports while a query runs. -/
structure Report where
  step : Nat
  message : String
deriving DecidableEq, Repr

/-- What a query does: the steps it reports, warnings, and the file of its results. -/
structure QueryReply where
  reports : List Report := []
  warnings : List RunWarning := []
  reply : Reply FilePath

/-- Runs queries and reads their results; it is told whether cancellation has been requested. -/
structure Engine (ε : Type) where
  run : Database → Query → Bool → ε → QueryReply × ε
  info : FilePath → ε → Reply ResultsInfo × ε
  decode : FilePath → String → ε → Reply Table × ε

/-- Takes the models of each stage. -/
structure Sink (τ : Type) where
  accept : Kind → List Entry → τ → Reply Unit × τ

namespace Sink

/-- Collects models in a map, where later ones win. -/
def map : Sink ModelMap where
  accept _ results models := (⟨.ok (), false⟩, models.extend results)

/-- Keeps the models of each stage as they come. -/
def channel : Sink (List (Kind × List Entry)) where
  accept kind results received := (⟨.ok (), false⟩, received ++ [(kind, results)])

/-- Calls a function with the models of each stage. -/
def each {τ : Type} (f : Kind → List Entry → τ → τ) : Sink τ where
  accept kind results s := (⟨.ok (), false⟩, f kind results s)

/-- Refuses everything, as nobody is there to receive it. -/
def closedChannel : Sink (List (Kind × List Entry)) where
  accept _ _ received := (⟨.error (.sink "channel closed"), false⟩, received)

end Sink

/-- What can be seen of a run. -/
inductive Event where
  | run (query : Query)
  | progress (p : Progress)
  | info (results : FilePath)
  | decode (results : FilePath) (resultSet : String)
  | accept (kind : Kind) (results : List Entry)
  | warning (w : RunWarning)

/-- How far a run is. -/
structure RunState (ε τ : Type) where
  engine : ε
  sink : τ
  cancelled : Bool := false
  events : List Event := []

/-- A part of a run. -/
abbrev RunM (ε τ α : Type) := ExceptT RunError (StateM (RunState ε τ)) α

/-- Everything that a run works with. -/
structure Generator (ε τ : Type) where
  engine : Engine ε
  sink : Sink τ
  database : Database
  qlDir : FilePath
  storageDir : FilePath

namespace Generator

variable {ε τ : Type}

/-- Notes what can be seen. -/
def note (events : List Event) : RunM ε τ Unit :=
  modify fun s => { s with events := s.events ++ events }

/-- Takes the result of a call, and any request to cancel. -/
def take {α : Type} (reply : Reply α) : RunM ε τ α := do
  modify fun s => { s with cancelled := s.cancelled || reply.cancels }
  match reply.result with
  | .ok a => return a
  | .error e => throw e

/-- Runs a query; its reports become progress of the stage at `index`. -/
def runQuery (g : Generator ε τ) (kind : Kind) (index : Nat) (query : Query) :
    RunM ε τ FilePath := do
  let s ← get
  let (reply, engine) := g.engine.run g.database query s.cancelled s.engine
  set { s with engine }
  note [.run query]
  note (reply.reports.map fun r => .progress (.ofStage kind index r.step r.message))
  note (reply.warnings.map .warning)
  take reply.reply

/-- Asks what a query left behind. -/
def readInfo (g : Generator ε τ) (results : FilePath) : RunM ε τ ResultsInfo := do
  let s ← get
  let (reply, engine) := g.engine.info results s.engine
  set { s with engine }
  note [.info results]
  take reply

/-- Reads a result set. -/
def readTable (g : Generator ε τ) (results : FilePath) (resultSet : String) : RunM ε τ Table := do
  let s ← get
  let (reply, engine) := g.engine.decode results resultSet s.engine
  set { s with engine }
  note [.decode results resultSet]
  take reply

/-- The model that a tuple describes: the row in the text of its first cell. -/
def entryOfTuple? (kind : Kind) (tuple : List Cell) : Option Entry := do
  Row.ofTuple? kind (← (← tuple.head?).text?)

/-- The models that the tuples of a table describe, in order. -/
def entriesOfTable (kind : Kind) (table : Table) : List Entry :=
  table.tuples.filterMap (entryOfTuple? kind)

/-- The warning about the tuples of a table that describe no model. -/
def tableWarnings (kind : Kind) (table : Table) : List Event :=
  let dropped := table.tuples.length - (entriesOfTable kind table).length
  if dropped = 0 then [] else [.warning (.droppedRows dropped table.tuples.length kind)]

/-- Captures the models of one kind, unless the query leaves no single result set. -/
def capture (g : Generator ε τ) (kind : Kind) (queryFile : String) (index : Nat) :
    RunM ε τ (Option (List Entry)) := do
  let query : Query := ⟨Stage.queryPath g.qlDir g.database.language queryFile, g.storageDir⟩
  let results ← g.runQuery kind index query
  let info ← g.readInfo results
  match info.resultSets with
  | [set] => do
    let table ← g.readTable results set.name
    note (tableWarnings kind table)
    return some (entriesOfTable kind table)
  | sets => do
    note [.warning (.resultSets sets.length)]
    return none

/-- Hands models to the sink. -/
def deliver (g : Generator ε τ) (kind : Kind) (results : List Entry) : RunM ε τ Unit := do
  let s ← get
  let (reply, sink) := g.sink.accept kind results s.sink
  set { s with sink }
  note [.accept kind results]
  take reply

/-- Runs a stage, unless cancellation has been requested. -/
def runStage (g : Generator ε τ) (stage : Stage) : RunM ε τ Unit := do
  if (← get).cancelled then throw .cancelled
  match ← g.capture stage.kind stage.queryFile stage.index with
  | some results => g.deliver stage.kind results
  | none => note [.warning (.skippedStage stage.kind)]

/-- Runs all stages. -/
def runStages (g : Generator ε τ) : RunM ε τ Unit :=
  Stage.all.forM g.runStage

/-- Runs all stages from a state; the state afterwards is known whatever the outcome. -/
def run (g : Generator ε τ) (start : RunState ε τ) : Except RunError Unit × RunState ε τ :=
  (g.runStages.run).run start

end Generator

/--
Saves the models of a run with a given way of saving. After a run that was cancelled the models so
far are saved and the run still counts as cancelled; after any other failure nothing is saved.
-/
def keepModels {σ : Type} (save : ModelMap → σ → σ × Except StorageError Unit) (models : ModelMap)
    (outcome : Except RunError Unit) (s : σ) : σ × List RunWarning × Except RunError Unit :=
  let saved (warnings : List RunWarning) : σ × List RunWarning × Except RunError Unit :=
    match save models s with
    | (s, .ok ()) => (s, warnings, outcome)
    | (s, .error e) => (s, warnings, .error (.storage e))
  match outcome with
  | .ok () => saved []
  | .error .cancelled => saved [.savingCancelled models.size]
  | .error e => (s, [], .error e)

end LibraryModels
