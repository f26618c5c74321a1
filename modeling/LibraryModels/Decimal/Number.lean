import LibraryModels.Decimal.Shortest

/-!
# Numbers of data formats

A number in a document is an integer between the least signed and the greatest unsigned 64-bit
number, or a double.
-/

namespace LibraryModels

open Decimal (Double ExponentStyle)

/-- A number in a document. -/
inductive Number where
  | integer (n : Int)
  | float (x : Double)
deriving DecidableEq, Repr

namespace Number

/-- The least integer of a document. -/
def minInteger : Int := -9223372036854775808

/-- The greatest integer of a document. -/
def maxInteger : Int := 18446744073709551615

/-- The greatest integer of 64 bits with a sign. -/
def maxSigned : Int := 9223372036854775807

/-- The text of an integer in decimal. -/
def integerText (n : Int) : String :=
  Double.withSign (n < 0) (Nat.toDigits 10 n.natAbs)

/-- The text of a number. -/
def text (style : ExponentStyle) : Number → String
  | .integer n => integerText n
  | .float x => x.text style

/-- Equal as numbers; an integer is never equal to a double. -/
def same : Number → Number → Bool
  | .integer a, .integer b => a == b
  | .float a, .float b => a.same b
  | _, _ => false

end Number

end LibraryModels
