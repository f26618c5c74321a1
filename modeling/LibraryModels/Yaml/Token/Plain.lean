import LibraryModels.Yaml.Cursor

/-!
# Plain scalars

A plain scalar goes on over blanks and line ends as long as the text goes on with something that
it may hold. A single line end between two lines is a space; of several, the first is left out.
-/

namespace LibraryModels.Yaml

/-- Blanks and line ends that belong to a scalar only if it goes on after them. -/
structure Gap where
  /-- Blanks on the same line, the last first. -/
  blanks : List Char := []
  /-- The first line end. -/
  lead : Option Char := none
  /-- The further line ends, the last first. -/
  breaks : List Char := []
  /-- A line has ended. -/
  folded : Bool := false

namespace Gap

/-- Takes a blank; blanks of a new line are indentation. -/
def addBlank (g : Gap) (c : Char) : Gap :=
  if g.folded then g else { g with blanks := c :: g.blanks }

/-- Takes a line end; the blanks before it are left out. -/
def addBreak (g : Gap) (c : Char) : Gap :=
  if g.folded then { g with breaks := breakText c :: g.breaks }
  else { g with blanks := [], lead := some (breakText c), folded := true }

/-- A line end that is escaped leaves no trace. -/
def escapedBreak : Gap where
  folded := true

/-- What the gap is in the text of the scalar. -/
def text (g : Gap) : List Char :=
  if g.folded then
    match g.lead with
    | some '\n' => if g.breaks.isEmpty then [' '] else g.breaks.reverse
    | lead => lead.toList ++ g.breaks.reverse
  else g.blanks.reverse

end Gap

/-- What has been read of a scalar. -/
structure PlainState where
  /-- The text so far, the last character first. -/
  text : List Char := []
  gap : Gap := {}
  /-- The next character is the first, or the first after a gap. -/
  fresh : Bool := true

/-- The characters that structure flow collections. -/
def isFlowIndicator (c : Char) : Bool :=
  c = ',' ∨ c = '[' ∨ c = ']' ∨ c = '\x7b' ∨ c = '\x7d'

/--
The result of reading a plain scalar: its text, whether it ended on a later line, and the cursor
after it.
-/
structure PlainScalar where
  text : String
  folded : Bool
  after : Cursor

namespace PlainState

/-- The scalar that ends here. -/
def finish (state : PlainState) (rest : List Char) (position : Position) : PlainScalar :=
  ⟨String.ofList state.text.reverse, state.gap.folded, ⟨rest, position⟩⟩

/-- Takes a character of the scalar. -/
def push (state : PlainState) (c : Char) : PlainState where
  text := c :: (state.gap.text.reverse ++ state.text)
  gap := {}
  fresh := false

/-- Takes a blank. -/
def blank (state : PlainState) (c : Char) : PlainState :=
  { state with gap := state.gap.addBlank c, fresh := true }

/-- Takes a line end. -/
def lineEnd (state : PlainState) (c : Char) : PlainState :=
  { state with gap := state.gap.addBreak c, fresh := true }

/-- Whether the scalar ends before a new run of characters. -/
def endsBeforeRun (state : PlainState) (inFlow : Bool) (indent : Int) (position : Position)
    (rest : List Char) : Bool :=
  state.fresh &&
    ((state.gap.folded || ! state.gap.blanks.isEmpty) && ! inFlow && position.column < indent ||
      position.column = 0 && atDocumentMark rest ||
      rest.head? = some '#')

/-- Whether the scalar ends before the character `c`. -/
def endsBefore (inFlow : Bool) (c : Char) (rest : List Char) : Bool :=
  c = ':' && atSpace rest || inFlow && isFlowIndicator c

/-- Whether a colon stands where the flow collection around the scalar cannot hold one. -/
def isMisplacedColon (inFlow : Bool) (c : Char) (rest : List Char) : Bool :=
  inFlow && c = ':' &&
    match rest with
    | n :: _ => n = '?' ∨ isFlowIndicator n
    | [] => false

/-- Reads on; `indent` is the least column of a further line in block context. -/
def read (inFlow : Bool) (indent : Int) (state : PlainState) (position : Position) :
    List Char → Option PlainScalar
  | [] => some (state.finish [] position)
  | '\r' :: '\n' :: rest => read inFlow indent (state.lineEnd '\n') (position.nextLine 2) rest
  | c :: rest =>
    if isBreak c then read inFlow indent (state.lineEnd c) (position.nextLine 1) rest
    else if isBlank c then
      if state.gap.folded ∧ position.column < indent ∧ c = '\t' then none
      else read inFlow indent (state.blank c) (position.advance 1) rest
    else if state.endsBeforeRun inFlow indent position (c :: rest) then
      some (state.finish (c :: rest) position)
    else if isMisplacedColon inFlow c rest then none
    else if endsBefore inFlow c rest then some (state.finish (c :: rest) position)
    else read inFlow indent (state.push c) (position.advance 1) rest

end PlainState

/-- Reads a plain scalar at the cursor. -/
def readPlain (inFlow : Bool) (indent : Int) (c : Cursor) : Option PlainScalar :=
  PlainState.read inFlow indent {} c.position c.rest

end LibraryModels.Yaml
