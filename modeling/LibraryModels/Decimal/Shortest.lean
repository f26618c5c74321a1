import LibraryModels.Decimal.Double

/-!
# Shortest decimal texts

A double is written with the fewest digits that read back as the same double, and of those the
digits nearest to its value. Where the point goes and how an exponent looks is a matter of style.
-/

namespace LibraryModels.Decimal

namespace Double

/-- The `k` for which `10 ^ (k - 1) ≤ num / den < 10 ^ k`. -/
def decimalMagnitude (num den : Nat) : Int :=
  if den ≤ num then digitCount (num / den)
  else
    let j := digitCount (den / num)
    if den ≤ num * Nat.pow 10 (j - 1) then 2 - (j : Int) else 1 - (j : Int)

/--
The decimal of the form `c · 10 ^ unit` that reads back as `x`: of two neighbours the nearer, the
even one on a tie.
-/
def onGrid? (x : Double) (num den : Nat) (unit : Int) : Option Nat :=
  let (n, d) := scaleDown 10 num den unit
  let low := n / d
  let readsBack (c : Nat) : Bool := ofDecimal x.negative c unit == x
  match readsBack low, readsBack (low + 1) with
  | true, true => some (roundQuotient n d)
  | true, false => some low
  | false, true => some (low + 1)
  | false, false => none

/-- The first grid, from `n` digits on, that holds a decimal which reads back as `x`. -/
def searchGrids (x : Double) (num den : Nat) (magnitude : Int) : Nat → Nat → Nat × Int
  | 0, n =>
    let unit := magnitude - n
    let (a, b) := scaleDown 10 num den unit
    (roundQuotient a b, unit)
  | more + 1, n =>
    match onGrid? x num den (magnitude - n) with
    | some c => (c, magnitude - n)
    | none => searchGrids x num den magnitude more (n + 1)

/-- The same decimal without trailing zeros; `fuel` bounds how many are removed. -/
def stripZeros : Nat → Nat × Int → Nat × Int
  | 0, d => d
  | fuel + 1, (digits, exponent) =>
    if digits ≠ 0 ∧ digits % 10 = 0 then stripZeros fuel (digits / 10, exponent + 1)
    else (digits, exponent)

/-- The shortest decimal `digits · 10 ^ exponent` for the magnitude of a finite double. -/
def shortest (x : Double) : Nat × Int :=
  let (num, den) := x.ratio
  if num = 0 then (0, 0)
  else stripZeros 20 (searchGrids x num den (decimalMagnitude num den) 16 1)

end Double

/-- How an exponent is written. -/
structure ExponentStyle where
  /-- A positive exponent has a sign too. -/
  signed : Bool
  /-- The least number of exponent digits. -/
  width : Nat
  /-- The texts of infinity and of not-a-number. -/
  infinity : String
  nan : String
deriving DecidableEq, Repr

namespace Double

/-- A run of zeros. -/
def zeros (n : Nat) : List Char :=
  List.replicate n '0'

/-- The text of an exponent, without the letter. -/
def exponentText (style : ExponentStyle) (e : Int) : List Char :=
  let digits := Nat.toDigits 10 e.natAbs
  let sign := if e < 0 then ['-'] else if style.signed then ['+'] else []
  sign ++ zeros (style.width - digits.length) ++ digits

/--
Digits with the point after the first `point` of them, padded with zeros where digits are missing.
-/
def positional (digits : List Char) (point : Int) : List Char :=
  if point ≤ 0 then '0' :: '.' :: (zeros (-point).toNat ++ digits)
  else if digits.length ≤ point.toNat then
    digits ++ zeros (point.toNat - digits.length) ++ ['.', '0']
  else digits.take point.toNat ++ '.' :: digits.drop point.toNat

/-- One digit before the point and an exponent. -/
def scientific (style : ExponentStyle) (digits : List Char) (point : Int) : List Char :=
  let fraction := digits.drop 1
  digits.take 1 ++ (if fraction.isEmpty then [] else '.' :: fraction) ++
    'e' :: exponentText style (point - 1)

/-- The sign in front of a text. -/
def withSign (negative : Bool) (cs : List Char) : String :=
  String.ofList (if negative then '-' :: cs else cs)

/--
The shortest text: positional when the point falls within `-4` to `16` digits, scientific
otherwise.
-/
def text (style : ExponentStyle) (x : Double) : String :=
  match x with
  | .finite negative _ _ =>
    let (digits, exponent) := x.shortest
    if digits = 0 then withSign negative ['0', '.', '0']
    else
      let ds := Nat.toDigits 10 digits
      let point := exponent + ds.length
      withSign negative
        (if -5 < point ∧ point ≤ 16 then positional ds point else scientific style ds point)
  | .infinite negative => withSign negative style.infinity.toList
  | .nan => style.nan

/-- The shortest text without ever using an exponent. -/
def plainText (x : Double) : String :=
  match x with
  | .finite negative _ _ =>
    let (digits, exponent) := x.shortest
    if digits = 0 then withSign negative ['0', '.', '0']
    else
      let ds := Nat.toDigits 10 digits
      withSign negative (positional ds (exponent + ds.length))
  | .infinite negative => withSign negative "inf.0".toList
  | .nan => "NaN.0"

end Double

end LibraryModels.Decimal
