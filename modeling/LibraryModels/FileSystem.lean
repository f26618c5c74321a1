import LibraryModels.Failure
import LibraryModels.FilePath
import LibraryModels.Text.Bytes

/-!
# A file system

Directories and files by their place, which is the list of names from the root. A path is followed
part by part, and every part but the last has to lead to a directory. The operations change one
place at a time.
-/

namespace LibraryModels

/-- What stands at a place. -/
inductive FileEntry where
  | directory
  | file (bytes : List UInt8)
deriving DecidableEq, Repr

/-- The names from the root to a file or directory. -/
abbrev Place := List String

/--
The files and directories below the root, the directory that relative paths start from, and the
one for temporary files.
-/
structure FileSystem where
  working : Place := []
  temporary : FilePath := .usualTemporary
  entries : List (Place × FileEntry) := []
deriving DecidableEq, Repr, Inhabited

namespace FileSystem

/-- What stands at a place; the root is always a directory. -/
def entry? (fs : FileSystem) (place : Place) : Option FileEntry :=
  if place = [] then some .directory else fs.entries.lookup place

/-- Puts something at a place, instead of what was there. -/
def set (fs : FileSystem) (place : Place) (entry : FileEntry) : FileSystem :=
  { fs with entries := (place, entry) :: fs.entries.filter fun e => e.1 ≠ place }

/-- The greatest length of a name in bytes. -/
def maxNameLength : Nat := 255

/-- Whether a name is too long. -/
def isTooLong (name : String) : Bool :=
  (Text.bytes name).length > maxNameLength

/-- The directory that the parts of a path lead to. -/
def follow (fs : FileSystem) (place : Place) : List String → Except FileError Place
  | [] => .ok place
  | part :: rest =>
    if FilePath.isIdle part then follow fs place rest
    else if part = ".." then follow fs place.dropLast rest
    else if isTooLong part then .error .nameTooLong
    else
      match fs.entry? (place ++ [part]) with
      | some .directory => follow fs (place ++ [part]) rest
      | some (.file _) => .error .notDirectory
      | none => .error .notFound

/-- What a path leads to. -/
inductive Target where
  /-- A directory that has no name in the path. -/
  | directory (place : Place)
  /-- A place in a directory; a separator after the name asks for a directory there. -/
  | named (place : Place) (separated : Bool)
deriving DecidableEq, Repr

/-- Follows a path to its last part. -/
def target (fs : FileSystem) (p : FilePath) : Except FileError Target :=
  let start := if p.isAbsolute then [] else fs.working
  if p.text = "" then .error .notFound
  else if '\x00' ∈ p.text.toList then .error .nulInPath
  else
    match (p.parts.filter (· ≠ "")).reverse with
    | [] => .ok (.directory start)
    | name :: before => do
      let parent ← fs.follow start before.reverse
      if name = "." ∨ name = ".." then return .directory (← fs.follow parent [name])
      else if isTooLong name then throw .nameTooLong
      else return .named (parent ++ [name]) (p.text.toList.getLast? = some '/')

/-- What stands where a path leads. -/
def find (fs : FileSystem) (p : FilePath) : Except FileError FileEntry := do
  match ← fs.target p with
  | .directory _ => return .directory
  | .named place separated =>
    match fs.entry? place with
    | some .directory => return .directory
    | some (.file bytes) => if separated then throw .notDirectory else return .file bytes
    | none => throw .notFound

/-- Whether a path leads to anything. -/
def pathExists (fs : FileSystem) (p : FilePath) : Bool :=
  (fs.find p).isOk

/-- Whether a path leads to a directory. -/
def isDirectory (fs : FileSystem) (p : FilePath) : Bool :=
  match fs.find p with
  | .ok .directory => true
  | _ => false

/-- The bytes of a file. -/
def readBytes (fs : FileSystem) (p : FilePath) : Except FileError (List UInt8) := do
  match ← fs.find p with
  | .directory => throw .isDirectory
  | .file bytes => return bytes

/-- The text of a file. -/
def readText (fs : FileSystem) (p : FilePath) : Except FileError String := do
  match Text.Utf8.decode (← fs.readBytes p) with
  | .ok text => return text
  | .error _ => throw .notText

/-- Writes a file in place of one that was there; its directory has to be there. -/
def writeBytes (fs : FileSystem) (p : FilePath) (bytes : List UInt8) :
    Except FileError FileSystem := do
  match ← fs.target p with
  | .directory _ => throw .isDirectory
  | .named place separated =>
    if separated ∨ fs.entry? place = some .directory then throw .isDirectory
    else return fs.set place (.file bytes)

/-- Writes the text of a file. -/
def writeText (fs : FileSystem) (p : FilePath) (text : String) : Except FileError FileSystem :=
  fs.writeBytes p (Text.bytes text)

/-- Makes a directory where nothing is. -/
def makeDirectory (fs : FileSystem) (p : FilePath) : Except FileError FileSystem := do
  match ← fs.target p with
  | .directory _ => throw .exists
  | .named place _ =>
    if (fs.entry? place).isSome then throw .exists else return fs.set place .directory

/-- Makes a directory, unless it is there already. -/
def ensureDirectory (fs : FileSystem) (p : FilePath) : Except FileError FileSystem :=
  match fs.makeDirectory p with
  | .ok fs => .ok fs
  | .error e => if fs.isDirectory p then .ok fs else .error e

/-- Makes a directory and those above it that are missing; `fuel` bounds how many there are. -/
def makeDirectoriesUpTo (fs : FileSystem) (p : FilePath) : Nat → FileSystem × Except FileError Unit
  | 0 => (fs, .error .notFound)
  | fuel + 1 =>
    if p.text = "" then (fs, .ok ())
    else
      match fs.makeDirectory p, p.parent? with
      | .ok fs, _ => (fs, .ok ())
      | .error .notFound, some parent =>
        match fs.makeDirectoriesUpTo parent fuel with
        | (fs, .ok ()) =>
          match fs.ensureDirectory p with
          | .ok fs => (fs, .ok ())
          | .error e => (fs, .error e)
        | (fs, .error e) => (fs, .error e)
      | .error .notFound, none => (fs, .error (.other "failed to create whole tree"))
      | .error e, _ => (fs, if fs.isDirectory p then .ok () else .error e)

/--
Makes a directory and those above it that are missing. What was made stays if a later one fails.
-/
def makeDirectories (fs : FileSystem) (p : FilePath) : FileSystem × Except FileError Unit :=
  fs.makeDirectoriesUpTo p (p.text.length + 1)

/-- Why something that is no program does not start. -/
def startFault (fs : FileSystem) (p : FilePath) : FileError :=
  match fs.find p with
  | .ok _ => .permissionDenied
  | .error e => e

end FileSystem

end LibraryModels
