import LibraryModels.Decimal.Number
import LibraryModels.Method

/-!
# Progress of a run

A stage reports steps of its own, at most a thousand. Shown to the caller, they fall into the
slice of the stage on one bar for the whole run.
-/

namespace LibraryModels

/-- What the caller is shown. -/
structure Progress where
  step : Nat := 0
  maxStep : Nat := 0
  message : String := ""
deriving DecidableEq, Repr, Inhabited

namespace Progress

/-- The width of the slice of a stage. -/
def stageSteps : Nat := 1000

/-- The end of the bar. -/
def lastStep : Nat := 4000

/-- The signal to hide the bar. -/
def clear : Progress := {}

/-- Whether an update is the signal to hide the bar. -/
def isClear (p : Progress) : Bool :=
  p == clear

/-- A step of a stage on the bar of the run. -/
def ofStage (kind : Kind) (index step : Nat) (message : String) : Progress where
  step := index * stageSteps + step
  maxStep := lastStep
  message := "Generating " ++ kind.name ++ " model: " ++ message

/-- The words for an update. -/
def text (p : Progress) : String :=
  "[" ++ Number.integerText p.step ++ "/" ++ Number.integerText p.maxStep ++ "] " ++ p.message

end Progress

end LibraryModels
