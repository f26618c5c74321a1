import LibraryModels.Decimal.Number

/-!
# JSON numerals

A numeral is read in two steps: its parts, and then its value. Integers that fit 64 bits are
exact. Of the digits of any other numeral, those are used that fit 64 bits; the double nearest to
them is multiplied or divided by the double nearest to a power of ten, which rounds a second time.
-/

namespace LibraryModels.Json

open Decimal (Double)

/-- The parts of a numeral, as they stand in the text. -/
structure Numeral where
  negative : Bool
  whole : List Char
  /-- The digits after the point; none without a point. -/
  fraction : List Char
  /-- Whether the exponent is negative, and its digits. -/
  exponent : Option (Bool × List Char)
deriving DecidableEq, Repr

namespace Numeral

/-- The digits at the front and what follows them. -/
def spanDigits (cs : List Char) : List Char × List Char :=
  (cs.takeWhile Char.isDigit, cs.dropWhile Char.isDigit)

/-- A point and at least one digit, or nothing. -/
def readFraction : List Char → Option (List Char × List Char)
  | '.' :: cs =>
    match spanDigits cs with
    | ([], _) => none
    | (digits, rest) => some (digits, rest)
  | cs => some ([], cs)

/-- The sign of an exponent and what follows it. -/
def readExponentSign : List Char → Bool × List Char
  | '+' :: cs => (false, cs)
  | '-' :: cs => (true, cs)
  | cs => (false, cs)

/-- An exponent with at least one digit, or nothing. -/
def readExponent (cs : List Char) : Option (Option (Bool × List Char) × List Char) :=
  match cs with
  | c :: rest =>
    if c = 'e' ∨ c = 'E' then
      let (negative, rest) := readExponentSign rest
      match spanDigits rest with
      | ([], _) => none
      | (digits, rest) => some (some (negative, digits), rest)
    else some (none, cs)
  | [] => some (none, [])

/-- The digits before the point; only a lone zero may begin with one. -/
def readWhole (cs : List Char) : Option (List Char × List Char) :=
  match spanDigits cs with
  | ([], _) => none
  | ('0' :: _ :: _, _) => none
  | (digits, rest) => some (digits, rest)

/-- The sign in front of a numeral and what follows it. -/
def readSign : List Char → Bool × List Char
  | '-' :: cs => (true, cs)
  | cs => (false, cs)

/-- Reads a numeral at the front of a text. -/
def read (cs : List Char) : Option (Numeral × List Char) := do
  let (negative, cs) := readSign cs
  let (whole, cs) ← readWhole cs
  let (fraction, cs) ← readFraction cs
  let (exponent, cs) ← readExponent cs
  return (⟨negative, whole, fraction, exponent⟩, cs)

/-- The value of a digit. -/
def digit (c : Char) : Nat :=
  c.toNat - '0'.toNat

/-- Appends digits to `significand` while it fits 64 bits; also gives how many were used. -/
def append (significand : Nat) : List Char → Nat × Nat
  | [] => (significand, 0)
  | c :: cs =>
    let next := significand * 10 + digit c
    if next ≥ Nat.pow 2 64 then (significand, 0)
    else
      let (all, used) := append next cs
      (all, used + 1)

/-- The value of digits, or nothing if it does not fit 31 bits. -/
def exponentValue? (digits : List Char) : Option Nat :=
  let n := digits.foldl (fun n c => n * 10 + digit c) 0
  if n < Nat.pow 2 31 then some n else none

/-- An exponent kept within 32 bits. -/
def clampExponent (e : Int) : Int :=
  max (-2147483648) (min 2147483647 e)

/-- The double nearest to a power of ten. -/
def powerOfTen (k : Nat) : Double :=
  Double.ofDecimal false 1 k

/-- The double nearest to `x` times `y`. -/
def times (x y : Double) : Double :=
  let (a, b) := x.ratio
  let (c, d) := y.ratio
  Double.ofRatio false (a * c) (b * d)

/-- The double nearest to `x` over `y`. -/
def quotient (x y : Double) : Double :=
  let (a, b) := x.ratio
  let (c, d) := y.ratio
  Double.ofRatio false (a * d) (b * c)

/--
`x · 10 ^ exponent` in steps of at most `10 ^ 308`, or nothing if it is too large; `steps` bounds
the divisions.
-/
def scale? (steps : Nat) (x : Double) (exponent : Int) : Option Double :=
  if exponent.natAbs ≤ 308 then
    if 0 ≤ exponent then
      let y := times x (powerOfTen exponent.natAbs)
      if y.isFinite then some y else none
    else some (quotient x (powerOfTen exponent.natAbs))
  else if x.same (Double.zero false) then some x
  else if 0 ≤ exponent then none
  else
    match steps with
    | 0 => some (Double.zero false)
    | steps + 1 => scale? steps (quotient x (powerOfTen 308)) (exponent + 308)

/-- A double with its sign set. -/
def signed (negative : Bool) : Double → Double
  | .finite _ mantissa exponent => .finite negative mantissa exponent
  | .infinite _ => .infinite negative
  | .nan => .nan

/-- The double of a significand and a power of ten, or nothing if it is too large. -/
def double? (negative : Bool) (significand : Nat) (exponent : Int) : Option Double :=
  (scale? 4 (Double.ofRatio false significand 1) exponent).map (signed negative)

/-- The value of a numeral, or nothing if it is too large for a double. -/
def value? (n : Numeral) : Option Number :=
  let (whole, used) := append 0 n.whole
  let dropped := n.whole.length - used
  if dropped = 0 ∧ n.fraction = [] ∧ n.exponent = none then
    if ¬ n.negative then some (.integer whole)
    else if whole = 0 ∨ whole > Nat.pow 2 63 then (double? true whole 0).map .float
    else some (.integer (-(whole : Int)))
  else
    let (significand, fractional) := append whole n.fraction
    let exponent : Int := (dropped : Int) - fractional
    match n.exponent with
    | none => (double? n.negative significand exponent).map .float
    | some (down, digits) =>
      match exponentValue? digits with
      | some e =>
        let exponent := clampExponent (exponent + if down then -(e : Int) else e)
        (double? n.negative significand exponent).map .float
      | none =>
        if significand ≠ 0 ∧ ¬ down then none
        else some (.float (Double.zero n.negative))

end Numeral

end LibraryModels.Json
