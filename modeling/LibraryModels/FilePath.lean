import LibraryModels.Text.Split

/-!
# File paths

A path is its text. Joining an absolute path discards what comes before; nothing is simplified.
Looking at a path passes over empty parts and dots, except for a dot at the start of a relative
path.
-/

namespace LibraryModels

/-- A path of the file system. -/
structure FilePath where
  text : String
deriving DecidableEq, Repr, Inhabited

namespace FilePath

/-- Whether a path starts at the root of the file system. -/
def isAbsolute (p : FilePath) : Bool :=
  p.text.toList.head? == some '/'

/-- The path of `q` as seen from `p`. -/
def join (p q : FilePath) : FilePath :=
  if q.isAbsolute then q
  else
    let cs := p.text.toList
    ⟨String.ofList
      (cs ++ (if cs.isEmpty || cs.getLast? == some '/' then [] else ['/']) ++ q.text.toList)⟩

/-- The path of an entry of `p`. -/
def entry (p : FilePath) (name : String) : FilePath :=
  p.join ⟨name⟩

/-- The directory for temporary files unless the surroundings of a program name another. -/
def usualTemporary : FilePath := ⟨"/tmp"⟩

/-- The parts between separators. -/
def parts (p : FilePath) : List String :=
  (Text.pieces '/' p.text.toList).map String.ofList

/-- The path of some parts. -/
def ofParts (parts : List String) : FilePath :=
  ⟨String.ofList (Text.joinWith '/' (parts.map String.toList))⟩

/-- Whether a part after the first leads nowhere else. -/
def isIdle (part : String) : Bool :=
  part = "" ∨ part = "."

/-- The parts after the first, the last first, from the last one that leads somewhere. -/
def tailParts (p : FilePath) : List String :=
  (p.parts.drop 1).reverse.dropWhile isIdle

/--
The name of the file or directory that a path leads to; a path to the root or upwards has none.
-/
def fileName? (p : FilePath) : Option String :=
  match p.tailParts with
  | name :: _ => if name = ".." then none else some name
  | [] =>
    match p.parts with
    | name :: _ => if isIdle name || name = ".." then none else some name
    | [] => none

/-- The path without its last part; the root and the empty path have none. -/
def parent? (p : FilePath) : Option FilePath :=
  match p.tailParts with
  | _ :: before =>
    let before := before.dropWhile isIdle
    match before, p.isAbsolute with
    | [], true => some ⟨"/"⟩
    | _, _ => some (ofParts (p.parts.take 1 ++ before.reverse))
  | [] => if p.isAbsolute || p.text = "" then none else some ⟨""⟩

end FilePath

end LibraryModels
