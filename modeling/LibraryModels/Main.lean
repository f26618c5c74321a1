import LibraryModels.CommandLine.Session
import LibraryModels.Execution.Json
import LibraryModels.Json.Value

/-!
# The program

Files are looked at before the run and written during and after it. A call of the executable is
one line on the standard output, a JSON list of its arguments; how it ended is one line of JSON on
the standard input, and a line that does not say it means that the executable did not start.
Messages go to the error output.
-/

namespace LibraryModels.CommandLine

/-- The place that a path names, if nothing but its parts is looked at. -/
def placeOf (fs : FileSystem) (p : FilePath) : Place :=
  p.parts.foldl
    (fun place part =>
      if FilePath.isIdle part then place
      else if part = ".." then place.dropLast
      else place ++ [part])
    (if p.isAbsolute then [] else fs.working)

/-- The path of a place. -/
def pathOf (place : Place) : String :=
  (FilePath.ofParts ("" :: place)).text

/-- Looks at what stands where a path leads. -/
def lookAt (fs : FileSystem) (p : FilePath) : IO FileSystem := do
  let here ← IO.currentDir
  if ← (here / p.text).isDir then return fs.set (placeOf fs p) .directory
  match ← (IO.FS.readBinFile p.text).toBaseIO with
  | .ok bytes => return fs.set (placeOf fs p) (.file bytes.data.toList)
  | .error _ => return fs

/-- Looks at everything on the way to where a path leads. -/
def lookAlong (fs : FileSystem) (p : FilePath) : IO FileSystem :=
  (List.range p.parts.length).foldlM
    (fun fs k => lookAt fs (.ofParts (p.parts.take (k + 1)))) fs

/-- Looks at everything that matters to a run; the first files lead to the others. -/
def lookFor (arguments : List String) : IO FileSystem := do
  let here ← IO.currentDir
  let temporary := (← IO.getEnv "TMPDIR").elim FilePath.usualTemporary FilePath.mk
  let empty : FileSystem :=
    { working := (FilePath.mk here.toString).parts.filter (· ≠ ""), temporary }
  let first ← (Session.paths arguments empty).foldlM lookAlong empty
  (Session.paths arguments first).foldlM lookAlong first

/-- Writes what has changed, the oldest change first. -/
def writeChanges (before after : FileSystem) : IO Unit :=
  after.entries.reverse.forM fun (place, entry) => do
    if before.entry? place = some entry then return
    match entry with
    | .directory => IO.FS.createDirAll (pathOf place)
    | .file bytes => IO.FS.writeBinFile (pathOf place) ⟨bytes.toArray⟩

/-- Asks how a call of the executable ends. -/
def ask (call : List String) : IO (Except FileError Execution) := do
  let output ← IO.getStdout
  output.putStrLn (Json.Value.array (call.map .string)).text
  output.flush
  let line ← (← IO.getStdin).getLine
  match Execution.ofJsonText line with
  | .ok execution => return .ok execution
  | .error _ => return .error .notFound

/-- Goes on until the run is over. -/
def finish : Nat → Session → IO Outcome
  | 0, s => return s.outcome
  | fuel + 1, s => do
    match s.nextCall? with
    | none => return s.outcome
    | some call =>
      writeChanges s.files s.outcome.world.files
      finish fuel (s.answer (← ask call))

/-- Runs with arguments and gives the exit code. -/
def program (arguments : List String) : IO UInt32 := do
  let files ← lookFor arguments
  let start ← IO.monoNanosNow
  let runName (n : Nat) : String := Number.integerText start ++ "-" ++ Number.integerText n
  let outcome ← finish Session.maxCalls { arguments, files, runName }
  writeChanges files outcome.world.files
  outcome.log.forM fun (level, message) => IO.eprintln (Vocabulary.name level ++ " " ++ message)
  return UInt32.ofNat outcome.exitCode

end LibraryModels.CommandLine

/-- Runs with the arguments of the command line. -/
def main (arguments : List String) : IO UInt32 :=
  LibraryModels.CommandLine.program arguments
