import LibraryModels.Execution
import LibraryModels.Json.Decode
import LibraryModels.Text.Bytes

/-!
# Executions as JSON

What is known of a process that ended by itself, as an object: its output, its error output and
its exit code. What is left out is empty, or the code of success.
-/

namespace LibraryModels.Execution

open Json (Error Source)

/-- The members that have been read so far. -/
structure Draft where
  stdout : Option String := none
  stderr : Option String := none
  exit : Option Nat := none

/-- Takes one member; those that are not asked for are passed over. -/
def Draft.add (d : Draft) (key : String) (item : Source) : Except Error Draft :=
  match key with
  | "stdout" => do return { d with stdout := ← Json.setOnce key d.stdout item.asString }
  | "stderr" => do return { d with stderr := ← Json.setOnce key d.stderr item.asString }
  | "exit" => do return { d with exit := ← Json.setOnce key d.exit item.asNatural }
  | _ => .ok d

/-- Reads an execution. -/
def ofSource (depth : Nat) : Source → Except Error Execution
  | .object members closed =>
    Json.enter depth fun _ => do
      let d ← Source.foldMembers Draft.add {} members closed
      return {
        stdout := Text.bytes (d.stdout.getD "")
        stderr := Text.bytes (d.stderr.getD "")
        ending := some (.code (d.exit.getD 0)) }
  | s => s.mismatch "an execution"

/-- Reads an execution from a text. -/
def ofJsonText (s : String) : Except Error Execution :=
  Source.decodeText ofSource s

end LibraryModels.Execution
