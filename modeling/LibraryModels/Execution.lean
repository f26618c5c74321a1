import LibraryModels.Failure

/-!
# Executions of programs

What is known of a process: the bytes that it wrote and how it ended. A process may also go on
until it is stopped. Its output is looked at line by line.
-/

namespace LibraryModels

/-- How a process ended. -/
inductive ExitStatus where
  | code (n : Nat)
  /-- By a signal; not every signal has a name. -/
  | signal (number : Nat) (name : Option String) (dumped : Bool := false)
deriving DecidableEq, Repr

namespace ExitStatus

/-- The end of a process that did its work. -/
def isSuccess (s : ExitStatus) : Bool :=
  s == .code 0

/-- The words for an end. -/
def text : ExitStatus → String
  | .code n => "exit status: " ++ Number.integerText n
  | .signal number name dumped =>
    "signal: " ++ Number.integerText number ++ (name.elim "" fun name => " (" ++ name ++ ")") ++
      if dumped then " (core dumped)" else ""

end ExitStatus

/-- What a process wrote and how it ended. -/
structure Execution where
  stdout : List UInt8 := []
  stderr : List UInt8 := []
  /-- How it ended; a process that has to be stopped does not end by itself. -/
  ending : Option ExitStatus := some (.code 0)
deriving DecidableEq, Repr, Inhabited

namespace Execution

/-- The bytes of a line that is read backwards, without a carriage return before its end. -/
def endedLine : List UInt8 → List UInt8
  | 0x0D :: line => line.reverse
  | line => line.reverse

/--
The lines of some bytes, without their ends; `line` is what was read of the first one, backwards.
Bytes after the last line feed are a line only if no more can follow.
-/
def byteLines (closed : Bool) (line : List UInt8) : List UInt8 → List (List UInt8)
  | [] => if closed && ! line.isEmpty then [line.reverse] else []
  | b :: rest =>
    if b = 0x0A then endedLine line :: byteLines closed [] rest
    else byteLines closed (b :: line) rest

/--
How a process ended that was waited for; one that goes on is ended by the user, who interrupts it.
-/
def status (p : Execution) : ExitStatus :=
  p.ending.getD (.signal 2 (some "SIGINT"))

/-- The lines of the error output. -/
def errorLines (p : Execution) : List (Except Text.Utf8Fault String) :=
  (byteLines p.ending.isSome [] p.stderr).map Text.Utf8.decode

end Execution

end LibraryModels
