import LibraryModels.Json.Bytes
import LibraryModels.Proofs.Json.Source
import LibraryModels.Proofs.Text.Utf8

/-!
# Bytes read as JSON

The bytes of a text are read as that text.  Other bytes between two quotes are read as a string that
has no text, and what comes after it is read as after any other string: bytes that are no characters
do no harm as long as nobody asks for them.
-/

namespace LibraryModels.Json

/-- The bytes of a text are read as that text. -/
theorem textOfBytes_bytes (s : String) :
    textOfBytes (Text.bytes s) = s := by
  rw [textOfBytes, Text.bytes_eq_flatMap, Text.Utf8.pieces_flatMap, List.flatMap_map]
  simp [charsOfPiece]

namespace Source

open Text.Utf8 (charsOf)

variable {pieces : List Text.Piece} {rest : List Char}

/-- A character that is itself in a string. -/
structure IsDirect (c : Char) : Prop where
  quote : c ≠ '"'
  escape : c ≠ '\\'
  control : ¬c.toNat < 0x20

/-- The elements of a string that a piece of its bytes is read as. -/
def elementsOf : Text.Piece → List Piece
  | .char c => [.char c]
  | .invalid _ | .incomplete _ => [.char '\uFFFD', .unit 0xD800, .char '\uFFFD']

theorem readPieces_faultMark (cs : List Char) :
    readPieces (faultMark ++ cs) =
      (readPieces cs).map fun r =>
        (.char '\uFFFD' :: .unit 0xD800 :: .char '\uFFFD' :: r.1, r.2) := by
  have hmark (cs : List Char) :
      readPieces ('\uFFFD' :: cs) = (readPieces cs).map fun r => (.char '\uFFFD' :: r.1, r.2) :=
    readPieces_direct (by decide) (by decide) (by decide)
  have hunit : Text.hexNumber? ['d', '8', '0', '0'] = some 0xD800 := by decide
  show readPieces ('\uFFFD' :: '\\' :: 'u' :: 'd' :: '8' :: '0' :: '0' :: '\uFFFD' :: cs) = _
  rw [hmark, readPieces_unit hunit, hmark, Option.map_map, Option.map_map]
  rfl

theorem readPieces_charsOfPiece
    (piece : Text.Piece) (cs : List Char)
    (hdirect : ∀ c, piece = .char c → IsDirect c) :
    readPieces (charsOfPiece piece ++ cs) =
      (readPieces cs).map fun r => (elementsOf piece ++ r.1, r.2) := by
  cases piece with
  | char c =>
      obtain ⟨hquote, hescape, hcontrol⟩ := hdirect c rfl
      exact readPieces_direct hquote hescape hcontrol
  | invalid length => exact readPieces_faultMark cs
  | incomplete length => exact readPieces_faultMark cs

theorem readPieces_flatMap
    (hdirect : ∀ c, .char c ∈ pieces → IsDirect c) :
    readPieces (pieces.flatMap charsOfPiece ++ '"' :: rest) =
      some (pieces.flatMap elementsOf, rest) := by
  induction pieces with
  | nil => rfl
  | cons piece pieces ih =>
      have hpiece : ∀ c, piece = .char c → IsDirect c := by
        rintro c rfl
        exact hdirect c List.mem_cons_self
      rw [List.flatMap_cons, List.append_assoc, readPieces_charsOfPiece piece _ hpiece,
        ih fun c hc => hdirect c (List.mem_cons_of_mem piece hc)]
      rfl

/-- The elements have a text when the pieces have one. -/
theorem decodePieces_elementsOf (index : Nat) (pieces : List Text.Piece) :
    decodePieces (pieces.flatMap elementsOf) = (charsOf index pieces).toOption := by
  induction pieces generalizing index with
  | nil => rfl
  | cons piece pieces ih =>
      rw [List.flatMap_cons]
      cases piece with
      | char c =>
          show (decodePieces (pieces.flatMap elementsOf)).map _ =
            ((charsOf (index + c.utf8Size) pieces).map _).toOption
          rw [ih (index + c.utf8Size)]
          cases charsOf (index + c.utf8Size) pieces with
          | error fault => rfl
          | ok cs => rfl
      | invalid length => rfl
      | incomplete length => rfl

/--
Bytes between two quotes, with nothing in them that is special in a string, are read as a string
with their text, or with none if they have none, and in either case the reading goes on after it.
-/
theorem readString_textOfBytes
    {bytes : List UInt8}
    (hdirect : ∀ c, .char c ∈ Text.Utf8.pieces bytes → IsDirect c) (rest : List Char) :
    readString ((textOfBytes bytes).toList ++ '"' :: rest) =
      some ((Text.Utf8.decode bytes).toOption, rest) := by
  have htext : (decodePieces ((Text.Utf8.pieces bytes).flatMap elementsOf)).map String.ofList =
      (Text.Utf8.decode bytes).toOption := by
    rw [decodePieces_elementsOf 0, Text.Utf8.decode]
    cases charsOf 0 (Text.Utf8.pieces bytes) with
    | error fault => rfl
    | ok cs => rfl
  rw [readString, textOfBytes, String.toList_ofList, readPieces_flatMap hdirect, ← htext]
  rfl

/-- A byte that begins no character leaves the string without a text. -/
example :
    readString ((textOfBytes [0x61, 0xFF]).toList ++ '"' :: [',']) = some (none, [',']) := by
  decide

end Source

end LibraryModels.Json
