import LibraryModels.Decimal.Number

/-!
# Reading UTF-8

Bytes are cut into characters and faulty pieces. A faulty piece is as long as it could begin a
character; at the end of the bytes it may be incomplete. A strict reader stops at the first faulty
piece, a lenient one puts the replacement character in its place.
-/

namespace LibraryModels.Text

/-- A piece of a byte sequence. -/
inductive Piece where
  | char (c : Char)
  /-- Bytes that begin no character. -/
  | invalid (length : Nat)
  /-- The beginning of a character at the end of the bytes. -/
  | incomplete (length : Nat)
deriving DecidableEq, Repr

/-- Where bytes stop being UTF-8. -/
inductive Utf8Fault where
  | invalid (length index : Nat)
  | incomplete (index : Nat)
deriving DecidableEq, Repr

/-- The words for a fault. -/
def Utf8Fault.text : Utf8Fault → String
  | .invalid length index =>
    "invalid utf-8 sequence of " ++ Number.integerText length ++ " bytes from index " ++
      Number.integerText index
  | .incomplete index =>
    "incomplete utf-8 byte sequence from index " ++ Number.integerText index

namespace Utf8

/-- A byte that goes on with a character. -/
def isContinuation (b : UInt8) : Bool :=
  0x80 ≤ b ∧ b < 0xC0

/-- Whether `b` may follow the first byte `a` of a character of three bytes. -/
def isSecondOfThree (a b : UInt8) : Bool :=
  if a = 0xE0 then 0xA0 ≤ b ∧ b < 0xC0
  else if a = 0xED then 0x80 ≤ b ∧ b < 0xA0
  else isContinuation b

/-- Whether `b` may follow the first byte `a` of a character of four bytes. -/
def isSecondOfFour (a b : UInt8) : Bool :=
  if a = 0xF0 then 0x90 ≤ b ∧ b < 0xC0
  else if a = 0xF4 then 0x80 ≤ b ∧ b < 0x90
  else isContinuation b

/-- The low bits of a continuation byte. -/
def low (b : UInt8) : Nat :=
  b.toNat % 64

/-- The pieces of a byte sequence. -/
def pieces : List UInt8 → List Piece
  | [] => []
  | a :: rest =>
    if a < 0x80 then .char (Char.ofNat a.toNat) :: pieces rest
    else if 0xC2 ≤ a ∧ a < 0xE0 then
      match rest with
      | [] => [.incomplete 1]
      | b :: after =>
        if isContinuation b then .char (Char.ofNat (a.toNat % 32 * 64 + low b)) :: pieces after
        else .invalid 1 :: pieces (b :: after)
    else if 0xE0 ≤ a ∧ a < 0xF0 then
      match rest with
      | [] => [.incomplete 1]
      | b :: rest =>
        if isSecondOfThree a b then
          match rest with
          | [] => [.incomplete 2]
          | c :: after =>
            if isContinuation c then
              .char (Char.ofNat ((a.toNat % 16 * 64 + low b) * 64 + low c)) :: pieces after
            else .invalid 2 :: pieces (c :: after)
        else .invalid 1 :: pieces (b :: rest)
    else if 0xF0 ≤ a ∧ a < 0xF5 then
      match rest with
      | [] => [.incomplete 1]
      | b :: rest =>
        if isSecondOfFour a b then
          match rest with
          | [] => [.incomplete 2]
          | c :: rest =>
            if isContinuation c then
              match rest with
              | [] => [.incomplete 3]
              | d :: after =>
                if isContinuation d then
                  .char (Char.ofNat (((a.toNat % 8 * 64 + low b) * 64 + low c) * 64 + low d)) ::
                    pieces after
                else .invalid 3 :: pieces (d :: after)
            else .invalid 2 :: pieces (c :: rest)
        else .invalid 1 :: pieces (b :: rest)
    else .invalid 1 :: pieces rest

/-- The characters of some pieces, the first of which is at `index`. -/
def charsOf (index : Nat) : List Piece → Except Utf8Fault (List Char)
  | [] => .ok []
  | .char c :: rest => (charsOf (index + c.utf8Size) rest).map (c :: ·)
  | .invalid length :: _ => .error (.invalid length index)
  | .incomplete _ :: _ => .error (.incomplete index)

/-- The text of bytes, or their first fault. -/
def decode (bytes : List UInt8) : Except Utf8Fault String :=
  (charsOf 0 (pieces bytes)).map String.ofList

/-- A piece as a character. -/
def Piece.lenient : Piece → Char
  | .char c => c
  | _ => '\uFFFD'

/-- The text of bytes with a replacement character for every faulty piece. -/
def decodeLossy (bytes : List UInt8) : String :=
  String.ofList ((pieces bytes).map Piece.lenient)

end Utf8

end LibraryModels.Text
