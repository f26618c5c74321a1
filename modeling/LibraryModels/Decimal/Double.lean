/-!
# Double-precision numbers

A finite double is `± mantissa · 2 ^ exponent` with exact integers, so that reading and writing
decimals is integer arithmetic. Rounding a quotient picks the nearest double and the even mantissa
on a tie; the exponent never falls below `-1074`, and past `971` the result is infinite.
-/

namespace LibraryModels.Decimal

/-- A double-precision number. -/
inductive Double where
  | finite (negative : Bool) (mantissa : Nat) (exponent : Int)
  | infinite (negative : Bool)
  | nan
deriving DecidableEq, Repr

/-- The integer nearest to `num / den`, the even one of two equally near. -/
def roundQuotient (num den : Nat) : Nat :=
  let q := num / den
  let r := num % den
  if 2 * r > den ∨ (2 * r = den ∧ q % 2 = 1) then q + 1 else q

/-- The quotient `num / den` divided by `base ^ e`, as numerator and denominator. -/
def scaleDown (base num den : Nat) (e : Int) : Nat × Nat :=
  if 0 ≤ e then (num, den * Nat.pow base e.toNat) else (num * Nat.pow base (-e).toNat, den)

namespace Double

/-- The least exponent of a finite double. -/
def minExponent : Int := -1074

/-- The greatest exponent of a finite double. -/
def maxExponent : Int := 971

/-- Zero with a sign. -/
def zero (negative : Bool) : Double :=
  .finite negative 0 minExponent

/-- The double nearest to `num / den`, with the given sign. -/
def ofRatio (negative : Bool) (num den : Nat) : Double :=
  if num = 0 then zero negative
  else
    let guess : Int := (num.log2 : Int) - den.log2 - 52
    let (n, d) := scaleDown 2 num den guess
    let exponent := max (if n < d * Nat.pow 2 52 then guess - 1 else guess) minExponent
    let (n, d) := scaleDown 2 num den exponent
    let q := roundQuotient n d
    let (mantissa, exponent) :=
      if q = Nat.pow 2 53 then (Nat.pow 2 52, exponent + 1) else (q, exponent)
    if exponent > maxExponent then .infinite negative else .finite negative mantissa exponent

/-- The magnitude of a finite double as a quotient; zero for the others. -/
def ratio : Double → Nat × Nat
  | .finite _ mantissa exponent => scaleDown 2 mantissa 1 (-exponent)
  | _ => (0, 1)

/-- The number of decimal digits of a natural number; zero has one. -/
def digitCount (n : Nat) : Nat :=
  (Nat.toDigits 10 n).length

/--
The double nearest to `± digits · 10 ^ exponent`. Magnitudes of 10 ^ 310 and more, or below 10 ^
-330, are settled without writing the power out.
-/
def ofDecimal (negative : Bool) (digits : Nat) (exponent : Int) : Double :=
  let magnitude := exponent + digitCount digits
  if digits = 0 then zero negative
  else if magnitude > 310 then .infinite negative
  else if magnitude < -330 then zero negative
  else
    let (num, den) := scaleDown 10 digits 1 (-exponent)
    ofRatio negative num den

/-- The sign of a number, `false` for not-a-number. -/
def negative : Double → Bool
  | .finite negative .. => negative
  | .infinite negative => negative
  | .nan => false

/-- Neither infinite nor not-a-number. -/
def isFinite : Double → Bool
  | .finite .. => true
  | _ => false

/-- Equal as numbers: zeros of either sign are equal, and so are two not-a-numbers. -/
def same : Double → Double → Bool
  | .finite _ 0 _, .finite _ 0 _ => true
  | a, b => a == b

end Double

end LibraryModels.Decimal
