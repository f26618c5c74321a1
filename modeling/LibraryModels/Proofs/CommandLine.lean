import LibraryModels.CommandLine.Run
import LibraryModels.Proofs.Codeql
import LibraryModels.Proofs.Generator.Keep

/-!
# What an invocation leaves behind

An invocation reads its settings, finds the directory of the libraries, loads the models that are
stored, runs the stages and stores what they delivered.  Where this chain breaks off decides what
is left: before the stages nothing has happened at all, a stage that fails leaves the directories
of query runs, and only after the last stage the model file is written.  The executable is known by
what it writes to its outputs and by how it ends; its results are files that only it reads.
-/

namespace LibraryModels

namespace Generator

variable {ε τ : Type} {g : Generator ε τ}

end Generator

namespace CommandLine

open Codeql (Host World)
open Generator (deliveredEntries)

variable {host : Host} {o : Options} {c : Config} {w : World} {p : FilePath}
variable {models : ModelMap} {outcome : Except RunError Unit} {log : List (Level × String)}

/-! ## Storing -/

/-- The state in which the stages begin. -/
def start (o : Options) (c : Config) (w : World) : RunState World ModelMap where
  engine := w
  sink := (initialModels o w.files
    (Workspace.file? c.workspaceFolders o.language o.databaseName)).1

/-- What comes of the stages. -/
def stages (host : Host) (o : Options) (c : Config) (qlDir : FilePath) (w : World) :
    Except RunError Unit × RunState World ModelMap :=
  (generator host o c qlDir).run (start o c w)

/-- Every stage was run, and none of them failed. -/
def Finished (records : List StageRecord) : Prop :=
  records.map StageRecord.stage = Stage.all ∧ ∀ r ∈ records, r.error? = none

section Collected

variable {qlDir : FilePath} {records : List StageRecord} {events : List Event}
variable (hcollected : (generator host o c qlDir).Collected (start o c w) records events)
include hcollected

theorem events_eq : events = records.flatMap (generator host o c qlDir).stageEvents :=
  List.append_cancel_left (hcollected.events_eq.symm.trans hcollected.passes.between.events_eq)

end Collected

end CommandLine

end LibraryModels
