import LibraryModels.FilePath
import LibraryModels.Method

/-!
# Stages

A run has a stage for each kind of models. A stage runs the query that captures models of its
kind, and owns an equal slice of the progress of the run.
-/

namespace LibraryModels

/-- One query of a run. -/
structure Stage where
  /-- The place in the run. -/
  index : Nat
  kind : Kind
  queryFile : String
deriving DecidableEq, Repr

namespace Stage

/-- The stage of a kind. -/
def ofKind : Kind → Stage
  | .summary => ⟨0, .summary, "CaptureSummaryModels.ql"⟩
  | .sink => ⟨1, .sink, "CaptureSinkModels.ql"⟩
  | .source => ⟨2, .source, "CaptureSourceModels.ql"⟩
  | .neutral => ⟨3, .neutral, "CaptureNeutralModels.ql"⟩

/-- The stages in the order in which they run. -/
def all : List Stage :=
  Kind.all.map ofKind

/-- The path of a query of the model generator. -/
def queryPath (root : FilePath) (language query : String) : FilePath :=
  ((root.entry language).entry "ql/src/utils/modelgenerator").entry query

/-- The path of the query of a stage. -/
def path (s : Stage) (root : FilePath) (language : String) : FilePath :=
  queryPath root language s.queryFile

/-- The words for a stage. -/
def text (s : Stage) : String :=
  s.kind.name ++ " (" ++ s.queryFile ++ ")"

end Stage

end LibraryModels
