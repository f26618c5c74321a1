import LibraryModels.Text.Utf8

/-!
# Bytes as a JSON text

Bytes need not be UTF-8 as a whole: only a string that is used has to be. The same is true of an
escape that is half of a surrogate pair, so that is what a faulty piece becomes. It stands between
two characters that end an escape before it, form no pair with what follows, and are no token
outside of strings.
-/

namespace LibraryModels.Json

/-- What stands for bytes that are no character. -/
def faultMark : List Char :=
  ['\uFFFD', '\\', 'u', 'd', '8', '0', '0', '\uFFFD']

/-- The characters that a piece of some bytes is read as. -/
def charsOfPiece : Text.Piece → List Char
  | .char c => [c]
  | .invalid _ | .incomplete _ => faultMark

/-- The text that bytes are read as. -/
def textOfBytes (bytes : List UInt8) : String :=
  String.ofList ((Text.Utf8.pieces bytes).flatMap charsOfPiece)

end LibraryModels.Json
