import LibraryModels.Yaml.Cursor

/-!
# Block scalars

A block scalar begins with `|` or `>`; its lines are indented deeper than what it belongs to. A
literal block keeps its line ends, a folded one turns a single line end between two lines that
begin with no blank into a space. The header may say how deep the lines are indented and what
becomes of the line ends after the last line.
-/

namespace LibraryModels.Yaml

/-- What becomes of the line ends after the last line of a block. -/
inductive Chomping where
  /-- None is kept. -/
  | strip
  /-- The first is kept. -/
  | clip
  /-- All are kept. -/
  | keep
deriving DecidableEq, Repr

/-- The header of a block scalar: chomping and the extra indentation of its lines. -/
structure BlockHeader where
  chomping : Chomping := .clip
  increment : Option Nat := none
deriving DecidableEq, Repr

namespace BlockHeader

/-- The chomping that a sign stands for. -/
def chomping? : Char → Option Chomping
  | '+' => some .keep
  | '-' => some .strip
  | _ => none

/-- The indentation that a digit stands for; a zero is no indentation. -/
def increment? (c : Char) : Option Nat :=
  if c.isDigit ∧ c ≠ '0' then some (c.toNat - '0'.toNat) else none

/-- Reads the indicators of a header, a sign and a digit in either order; a zero is refused. -/
def read : List Char → Option (BlockHeader × Nat)
  | [] => some ({}, 0)
  | a :: rest =>
    match chomping? a with
    | some chomping =>
      match rest with
      | b :: _ =>
        if b.isDigit then (increment? b).map fun n => (⟨chomping, some n⟩, 2)
        else some (⟨chomping, none⟩, 1)
      | [] => some (⟨chomping, none⟩, 1)
    | none =>
      if a.isDigit then
        (increment? a).map fun n =>
          match rest.head? >>= chomping? with
          | some chomping => (⟨chomping, some n⟩, 2)
          | none => (⟨.clip, some n⟩, 1)
      else some ({}, 0)

end BlockHeader

/-- Whether a block scalar is being read in a line or before one. -/
inductive BlockPlace where
  | inLine
  | beforeLine
deriving DecidableEq, Repr

/-- What has been read of a block scalar. -/
structure BlockState where
  /-- The text so far, the last character first. -/
  text : List Char := []
  /-- The line end of the last line. -/
  lead : Option Char := none
  /-- The further line ends, the last first. -/
  breaks : List Char := []
  /-- The last line began with a blank. -/
  indented : Bool := false
  place : BlockPlace := .beforeLine

namespace BlockState

/-- Takes the first character of a line; a literal block keeps the line end before it. -/
def startLine (literal : Bool) (state : BlockState) (c : Char) : BlockState :=
  let folds := ! literal && state.lead = some '\n' && ! state.indented && ! isBlank c
  let lead := if folds then (if state.breaks.isEmpty then [' '] else []) else state.lead.toList
  { text := c :: (state.breaks ++ (lead ++ state.text))
    lead := none
    breaks := []
    indented := isBlank c
    place := .inLine }

/-- Takes the end of a line or of an empty line. -/
def lineEnd (state : BlockState) (c : Char) : BlockState :=
  match state.place with
  | .inLine => { state with lead := some (breakText c), place := .beforeLine }
  | .beforeLine => { state with breaks := breakText c :: state.breaks }

/-- The text of a block that ends here. -/
def finish (chomping : Chomping) (state : BlockState) : String :=
  let lead := if chomping = .strip then [] else state.lead.toList
  let breaks := if chomping = .keep then state.breaks else []
  String.ofList (breaks ++ (lead ++ state.text)).reverse

/-- Reads the lines that are indented to the column `indent`. -/
def read (literal : Bool) (chomping : Chomping) (indent : Nat) (state : BlockState)
    (position : Position) : List Char → Option (String × Cursor)
  | [] => some (state.finish chomping, ⟨[], position⟩)
  | '\r' :: '\n' :: rest =>
    read literal chomping indent (state.lineEnd '\n') (position.nextLine 2) rest
  | c :: rest =>
    if isBreak c then
      read literal chomping indent (state.lineEnd c) (position.nextLine 1) rest
    else
      match state.place with
      | .inLine =>
        let state := { state with text := c :: state.text }
        read literal chomping indent state (position.advance 1) rest
      | .beforeLine =>
        if position.column < indent ∧ c = ' ' then
          read literal chomping indent state (position.advance 1) rest
        else if position.column < indent ∧ c = '\t' then none
        else if position.column = indent then
          read literal chomping indent (state.startLine literal c) (position.advance 1) rest
        else some (state.finish chomping, ⟨c :: rest, position⟩)

end BlockState

/--
Finds how far the first lines are indented: the greatest column that their leading spaces reach,
up to the first line that is not empty. A tab in that place is refused. Gives that column, the
line ends passed, the last first, and the cursor.
-/
def detectIndent (greatest : Nat) (breaks : List Char) (position : Position) :
    List Char → Option (Nat × List Char × Cursor)
  | [] => some (max greatest position.column, breaks, ⟨[], position⟩)
  | ' ' :: rest => detectIndent greatest breaks (position.advance 1) rest
  | '\t' :: _ => none
  | '\r' :: '\n' :: rest =>
    detectIndent (max greatest position.column) ('\n' :: breaks) (position.nextLine 2) rest
  | c :: rest =>
    if isBreak c then
      detectIndent (max greatest position.column) (breakText c :: breaks) (position.nextLine 1) rest
    else some (max greatest position.column, breaks, ⟨c :: rest, position⟩)

/--
Reads a block scalar inside a collection at column `parent`; the cursor stands at its `|` or `>`.
-/
def readBlock (literal : Bool) (parent : Int) (c : Cursor) : Option (String × Cursor) := do
  let c := c.advance 1
  let (header, used) ← BlockHeader.read c.rest
  let c := (c.advance used).skipToLineEnd
  guard (atLineEnd c.rest)
  let c := c.skipBreak
  match header.increment with
  | some increment =>
    let indent := (if 0 ≤ parent then parent else 0).toNat + increment
    BlockState.read literal header.chomping indent {} c.position c.rest
  | none =>
    let (found, breaks, c) ← detectIndent 0 [] c.position c.rest
    let indent := max (max found (parent + 1).toNat) 1
    BlockState.read literal header.chomping indent { breaks } c.position c.rest

end LibraryModels.Yaml
