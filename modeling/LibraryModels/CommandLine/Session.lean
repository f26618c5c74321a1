import LibraryModels.CommandLine.Run

/-!
# Runs that wait for the executable

Which calls of the executable a run makes depends on how the calls before ended. A session is a
run of which the first ends are known. It stops at the first call whose end is not known, or else
it is over; answering that call gives the next session. Until it is over it fails at that call, so
nothing is stored.
-/

namespace LibraryModels.CommandLine

open Codeql (Host)

/-- A run, and what is known of the executable. -/
structure Session where
  arguments : List String
  files : FileSystem
  /-- The names of the directories of query runs. -/
  runName : Nat → String
  /-- How the calls so far ended, in order. -/
  ends : List (Except FileError Execution) := []

namespace Session

/-- What stands for the end of a call that is not known. -/
def unanswered : Execution where
  ending := some (.code 1)

/-- The surroundings of a run: the ends that are known. -/
def host (s : Session) : Host where
  start w _ _ := s.ends.getD w.calls.length (.ok unanswered)
  runName := s.runName

/-- What the run leaves behind, as far as it goes. -/
def outcome (s : Session) : Outcome :=
  runArguments s.host s.arguments { files := s.files }

/-- The arguments of the first call whose end is not known. -/
def nextCall? (s : Session) : Option (List String) :=
  s.outcome.world.calls[s.ends.length]?

/-- The session in which one more end is known. -/
def answer (s : Session) (reply : Except FileError Execution) : Session :=
  { s with ends := s.ends ++ [reply] }

/-- How many calls a run can make: a query run and two readings of its results in each stage. -/
def maxCalls : Nat :=
  3 * Stage.all.length

/-- The paths whose files matter to a run, given the files that lead to them. -/
def paths (arguments : List String) (files : FileSystem) : List FilePath :=
  match Options.ofArguments arguments with
  | .error _ => []
  | .ok o =>
    o.config.toList ++
      match o.settings files with
      | .error _ => []
      | .ok c =>
        c.queryStorageDir :: (Workspace.file? c.workspaceFolders o.language o.databaseName).toList

end Session

end LibraryModels.CommandLine
