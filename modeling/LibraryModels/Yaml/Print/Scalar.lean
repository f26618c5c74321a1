import LibraryModels.Yaml.Print.Style

/-!
# Writing scalars

The five forms of a scalar as characters. Whatever goes on over a line end is indented by a given
number of spaces.
-/

namespace LibraryModels.Yaml.Print

/-- A run of spaces. -/
def spaces (n : Nat) : List Char :=
  List.replicate n ' '

/-- The last `width` hexadecimal digits of a number, in capitals. -/
def hexDigits : Nat → Nat → List Char
  | 0, _ => []
  | width + 1, n => hexDigits width (n / 16) ++ [(Nat.digitChar (n % 16)).toUpper]

/-- The letter of a short escape. -/
def shortEscape? : Char → Option Char
  | '\x00' => some '0'
  | '\x07' => some 'a'
  | '\x08' => some 'b'
  | '\t' => some 't'
  | '\n' => some 'n'
  | '\x0b' => some 'v'
  | '\x0c' => some 'f'
  | '\r' => some 'r'
  | '\x1b' => some 'e'
  | '"' => some '"'
  | '\\' => some '\\'
  | '\x85' => some 'N'
  | '\xa0' => some '_'
  | '\u2028' => some 'L'
  | '\u2029' => some 'P'
  | _ => none

/-- An escaped character. -/
def escaped (c : Char) : List Char :=
  match shortEscape? c with
  | some letter => ['\\', letter]
  | none =>
    if c.toNat ≤ 0xFF then '\\' :: 'x' :: hexDigits 2 c.toNat
    else if c.toNat ≤ 0xFFFF then '\\' :: 'u' :: hexDigits 4 c.toNat
    else '\\' :: 'U' :: hexDigits 8 c.toNat

/-- How a character stands between double quotes. -/
def doubleQuotedChar (c : Char) : List Char :=
  if ! isDirect c || isBreak c || c = '"' || c = '\\' then escaped c else [c]

/-- A text between double quotes. -/
def doubleQuoted (cs : List Char) : List Char :=
  '"' :: cs.flatMap doubleQuotedChar ++ ['"']

/--
The text between single quotes; after a line end other than a line feed the text goes on indented.
-/
def singleQuotedBody (indent : Nat) (afterBreak : Bool) : List Char → List Char
  | [] => if afterBreak then spaces indent else []
  | c :: rest =>
    if isBreak c then c :: singleQuotedBody indent true rest
    else
      (if afterBreak then spaces indent else []) ++
        (if c = '\'' then ['\'', '\''] else [c]) ++ singleQuotedBody indent false rest

/-- A text between single quotes. -/
def singleQuoted (indent : Nat) (cs : List Char) : List Char :=
  '\'' :: singleQuotedBody indent false cs ++ ['\'']

/-- The lines of a literal block; every line that is not empty is indented. -/
def literalBody (indent : Nat) (atStart : Bool) : List Char → List Char
  | [] => []
  | c :: rest =>
    if isBreak c then c :: literalBody indent true rest
    else (if atStart then spaces indent else []) ++ c :: literalBody indent false rest

/-- A digit that tells the indentation is needed before a text that begins with space. -/
def indentationHint (cs : List Char) : List Char :=
  if cs.head?.any fun c => c = ' ' || isBreak c then ['2'] else []

/-- The sign that tells how many line ends follow the last line: none, one or more. -/
def chompingHint (cs : List Char) : List Char :=
  match cs.reverse with
  | [] => ['-']
  | last :: before =>
    if ! isBreak last then ['-']
    else if before.isEmpty || before.head?.any isBreak then ['+']
    else []

/-- The line end of a text that has none. -/
def closingBreak (cs : List Char) : List Char :=
  if cs.getLast?.any isBreak then [] else ['\n']

/-- A literal block with its last line end. -/
def literal (indent : Nat) (cs : List Char) : List Char :=
  '|' :: (indentationHint cs ++ (chompingHint cs ++
    '\n' :: (literalBody indent true cs ++ closingBreak cs)))

/-- A text in the style that it is written in on one line. -/
def inlineText (indent : Nat) (s : String) : List Char :=
  match styleOf s with
  | .singleQuoted => singleQuoted indent s.toList
  | .doubleQuoted => doubleQuoted s.toList
  | _ => s.toList

/-- A text with the line end after it. -/
def textLine (indent : Nat) (s : String) : List Char :=
  if styleOf s = .literal then literal indent s.toList
  else inlineText indent s ++ ['\n']

end LibraryModels.Yaml.Print
