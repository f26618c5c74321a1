import LibraryModels.Yaml.Style
import LibraryModels.Yaml.Value

/-!
# What a plain scalar means

A text without quotes is nothing, a boolean, a number or a text. The words for nothing and for the
booleans are fixed. An integer has an optional sign and decimal digits, or digits after `0x`, `0o`
or `0b`; decimal digits after a leading zero are a text. An integer that takes more than 64 but
not more than 128 bits means nothing at all. Any other finite decimal is a double.
-/

namespace LibraryModels.Yaml

open Decimal (Double)

/-- The words for an absent value. -/
def isNullWord (s : String) : Bool :=
  s ∈ ["null", "Null", "NULL", "~"]

/-- The boolean that a word stands for. -/
def boolWord? (s : String) : Option Bool :=
  if s ∈ ["true", "True", "TRUE"] then some true
  else if s ∈ ["false", "False", "FALSE"] then some false
  else none

namespace Scalar

/-- The sign in front of a numeral, negative or not, and what follows it. -/
def readSign : List Char → Bool × List Char
  | '-' :: rest => (true, rest)
  | '+' :: rest => (false, rest)
  | cs => (false, cs)

/-- The value of a digit, decimal or letter. -/
def digitValue (c : Char) : Nat :=
  if c.isDigit then c.toNat - '0'.toNat
  else if 'a' ≤ c ∧ c ≤ 'z' then c.toNat - 'a'.toNat + 10
  else if 'A' ≤ c ∧ c ≤ 'Z' then c.toNat - 'A'.toNat + 10
  else 36

/-- The number that digits of a base spell; at least one is due. -/
def natural? (base : Nat) (digits : List Char) : Option Nat :=
  if ! digits.isEmpty && digits.all (fun c => digitValue c < base) then
    some (digits.foldl (fun n c => n * base + digitValue c) 0)
  else none

/-- The number that an unsigned numeral spells. -/
def magnitude? : List Char → Option Nat
  | '0' :: 'x' :: digits => natural? 16 digits
  | '0' :: 'o' :: digits => natural? 8 digits
  | '0' :: 'b' :: digits => natural? 2 digits
  | ['0'] => some 0
  | '0' :: _ => none
  | digits => natural? 10 digits

/-- The integer that a text spells, of any size. -/
def integer? (s : String) : Option Int :=
  let (negative, rest) := readSign s.toList
  (magnitude? rest).map fun n => if negative then -(n : Int) else n

/-- Whether an integer fits 64 bits. -/
def isNarrow (n : Int) : Bool :=
  Number.minInteger ≤ n ∧ n ≤ Number.maxInteger

/-- Whether an integer fits 128 bits. -/
def isWide (n : Int) : Bool :=
  -(Nat.pow 2 127 : Int) ≤ n ∧ n < (Nat.pow 2 128 : Int)

/-- More than one decimal digit with a zero in front, after an optional sign. -/
def isPaddedNumeral (s : String) : Bool :=
  match (readSign s.toList).2 with
  | '0' :: c :: rest => (c :: rest).all Char.isDigit
  | _ => false

/-- The exponent of a decimal, which a text without one leaves at zero. -/
def exponent? : List Char → Option Int
  | [] => some 0
  | c :: rest =>
    if c = 'e' ∨ c = 'E' then
      let (negative, digits) := readSign rest
      (natural? 10 digits).map fun n => if negative then -(n : Int) else n
    else none

/-- The double nearest to an unsigned decimal with a point or an exponent or neither. -/
def decimal? (negative : Bool) (cs : List Char) : Option Double := do
  let whole := cs.takeWhile Char.isDigit
  let rest := cs.dropWhile Char.isDigit
  let (fraction, rest) :=
    match rest with
    | '.' :: rest => (rest.takeWhile Char.isDigit, rest.dropWhile Char.isDigit)
    | rest => ([], rest)
  let digits ← natural? 10 (whole ++ fraction)
  let exponent ← exponent? rest
  return Double.ofDecimal negative digits (exponent - fraction.length)

/-- The double that a text spells: infinite or not-a-number by their words, or a finite decimal. -/
def double? (s : String) : Option Double :=
  if s ∈ [".inf", ".Inf", ".INF", "+.inf", "+.Inf", "+.INF"] then some (.infinite false)
  else if s ∈ ["-.inf", "-.Inf", "-.INF"] then some (.infinite true)
  else if s ∈ [".nan", ".NaN", ".NAN"] then some .nan
  else
    let (negative, rest) := readSign s.toList
    match decimal? negative rest with
    | some x => if x.isFinite then some x else none
    | none => none

/-- The integer or double of a text that spells an integer. -/
inductive Reading where
  | integer (n : Int)
  /-- An integer that is too large to be one and too small to be a double. -/
  | refused
  | other
deriving DecidableEq, Repr

/-- The unsigned integer of 64 bits that a text without a minus spells. -/
def unsigned? (s : String) : Option Nat :=
  match readSign s.toList with
  | (false, rest) =>
    match magnitude? rest with
    | some n => if n < Nat.pow 2 64 then some n else none
    | none => none
  | _ => none

/-- How a text reads as an integer. -/
def readInteger (s : String) : Reading :=
  match integer? s with
  | some n => if isNarrow n then .integer n else if isWide n then .refused else .other
  | none => .other

end Scalar

/-- The value of a plain text without a tag, unless it is an integer that is refused. -/
def plainValue? (s : String) : Option Value :=
  if s = "" ∨ isNullWord s then some .null
  else
    match boolWord? s with
    | some b => some (.bool b)
    | none =>
      match Scalar.readInteger s with
      | .integer n => some (.number (.integer n))
      | .refused => none
      | .other =>
        if Scalar.isPaddedNumeral s then some (.string s)
        else
          match Scalar.double? s with
          | some x => some (.number (.float x))
          | none => some (.string s)

/-- The value of a text in a style without a tag. -/
def untaggedValue? (text : String) (style : Style) : Option Value :=
  if style = .plain then plainValue? text else some (.string text)

/-- The tags that fix the type of a scalar. -/
inductive CoreTag where
  | null
  | bool
  | int
  | float
deriving DecidableEq, Repr

/-- The type that a tag in full fixes. -/
def coreTag? (tag : String) : Option CoreTag :=
  match tag with
  | "tag:yaml.org,2002:null" => some .null
  | "tag:yaml.org,2002:bool" => some .bool
  | "tag:yaml.org,2002:int" => some .int
  | "tag:yaml.org,2002:float" => some .float
  | _ => none

/-- The value of a text whose type is fixed, if it has that type. -/
def CoreTag.value? (text : String) : CoreTag → Option Value
  | .null => if isNullWord text then some .null else none
  | .bool => (boolWord? text).map .bool
  | .int =>
    match Scalar.readInteger text with
    | .integer n => some (.number (.integer n))
    | _ => none
  | .float => (Scalar.double? text).map fun x => .number (.float x)

/-- The name of a tag that is the document's own, without the marks in front. -/
def ownTag? (tag : String) : Option String :=
  match tag.toList with
  | ['!'] => some "!"
  | ['!', '!'] => some "!"
  | '!' :: '!' :: name => some (String.ofList name)
  | '!' :: name => some (String.ofList name)
  | _ => none

/-- The value of a scalar, tags of the document's own left aside. -/
def scalarValue? (tag : Option String) (text : String) (style : Style) : Option Value :=
  match tag with
  | none => untaggedValue? text style
  | some tag =>
    if (ownTag? tag).isSome then untaggedValue? text style
    else
      match coreTag? tag with
      | some core => core.value? text
      | none => some (.string text)

end LibraryModels.Yaml
