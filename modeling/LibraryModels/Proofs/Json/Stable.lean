import LibraryModels.Proofs.Json.Decode
import LibraryModels.Proofs.Json.Source

/-!
# Values that are read back

A numeral that is written as an integer and fits 64 bits has exactly this integer as its value; only
the negative zero becomes a double.  Numbers of this kind are read back from their text, and so is a
value whose numbers are of this kind, if it is not nested too deep.  Whatever is read from a text in
which all numerals are integers is such a value.
-/

namespace LibraryModels

open Decimal (Double)

/-- A number that is read back from its text for certain: an integer, or the negative zero. -/
inductive Number.Stable : Number → Prop where
  | integer {n : Int} (hmin : minInteger ≤ n) (hmax : n ≤ maxInteger) : Stable (.integer n)
  | negativeZero : Stable (.float (.zero true))

namespace Json

/-! ## Numerals -/

namespace Numeral

/-- The digits before the point as a number. -/
def natural (n : Numeral) : Nat :=
  Nat.ofDigitChars 10 n.whole 0

/-- The digits before the point with their sign. -/
def integer (n : Numeral) : Int :=
  if n.negative then -n.natural else n.natural

/-- Whether a numeral is written as an integer that fits 64 bits, with or without a sign. -/
def isWhole (n : Numeral) : Bool :=
  n.fraction = [] ∧ n.exponent = none ∧
    Number.minInteger ≤ n.integer ∧ n.integer ≤ Number.maxInteger

theorem ofDigitChars_cons (c : Char) (digits : List Char) (k : Nat) :
    Nat.ofDigitChars 10 (c :: digits) k = Nat.ofDigitChars 10 digits (k * 10 + digit c) := by
  rw [Nat.ofDigitChars, List.foldl_cons, ← Nat.ofDigitChars, Nat.mul_comm, digit]

theorem le_ofDigitChars (digits : List Char) (k : Nat) :
    k ≤ Nat.ofDigitChars 10 digits k := by
  induction digits generalizing k with
  | nil => exact Nat.le_refl k
  | cons c rest ih =>
      rw [ofDigitChars_cons]
      have hrest := ih (k * 10 + digit c)
      omega

/-- Digits that fit 64 bits are all used. -/
theorem append_eq
    {digits : List Char} {k : Nat}
    (h : Nat.ofDigitChars 10 digits k < Nat.pow 2 64) :
    append k digits = (Nat.ofDigitChars 10 digits k, digits.length) := by
  induction digits generalizing k with
  | nil => rfl
  | cons c rest ih =>
      rw [ofDigitChars_cons] at h ⊢
      have hnext : ¬k * 10 + digit c ≥ Nat.pow 2 64 := by
        have hle := le_ofDigitChars rest (k * 10 + digit c)
        omega
      rw [append]
      simp only [if_neg hnext, ih h, List.length_cons]

theorem double?_negativeZero : double? true 0 0 = some (.zero true) := by
  decide +kernel

theorem value?_of_isWhole
    {n : Numeral}
    (h : n.isWhole = true) :
    n.value? =
      some (if n.negative = true ∧ n.natural = 0 then .float (.zero true)
        else .integer n.integer) := by
  obtain ⟨negative, whole, fraction, exponent⟩ := n
  obtain ⟨hfraction, hexponent, hmin, hmax⟩ := of_decide_eq_true h
  cases show fraction = [] from hfraction
  cases show exponent = none from hexponent
  simp only [integer, natural, Number.minInteger, Number.maxInteger] at hmin hmax ⊢
  have hfits : Nat.ofDigitChars 10 whole 0 < Nat.pow 2 64 := by
    show Nat.ofDigitChars 10 whole 0 < 18446744073709551616
    cases negative <;> grind
  rw [value?]
  simp only [append_eq hfits, Nat.sub_self, true_and, if_true]
  cases negative with
  | false => simp
  | true =>
      have hsigned : ¬Nat.ofDigitChars 10 whole 0 > Nat.pow 2 63 := by
        show ¬Nat.ofDigitChars 10 whole 0 > 9223372036854775808
        grind
      by_cases hzero : Nat.ofDigitChars 10 whole 0 = 0
      · simp [hzero, double?_negativeZero]
      · simp [hzero, hsigned]

theorem stable_of_isWhole
    {n : Numeral} {k : Number}
    (h : n.isWhole = true) (hk : n.value? = some k) :
    k.Stable := by
  rw [value?_of_isWhole h] at hk
  cases hk
  split
  · exact .negativeZero
  · obtain ⟨-, -, hmin, hmax⟩ := of_decide_eq_true h
    exact .integer hmin hmax

theorem natural_ofInteger (n : Int) : (ofInteger n).natural = n.natAbs :=
  Nat.ofDigitChars_toDigits (by decide) (by decide)

theorem integer_ofInteger (n : Int) : (ofInteger n).integer = n := by
  rw [integer, natural_ofInteger]
  simp only [ofInteger, decide_eq_true_eq]
  split
  all_goals omega

theorem value?_ofInteger
    {n : Int}
    (hmin : Number.minInteger ≤ n) (hmax : n ≤ Number.maxInteger) :
    (ofInteger n).value? = some (.integer n) := by
  have hwhole : (ofInteger n).isWhole = true := by
    simp only [isWhole, integer_ofInteger, decide_eq_true_eq]
    exact ⟨rfl, rfl, hmin, hmax⟩
  have hpositive : ¬((ofInteger n).negative = true ∧ (ofInteger n).natural = 0) := by
    rw [natural_ofInteger]
    rintro ⟨hnegative, hzero⟩
    have hn : n < 0 := of_decide_eq_true hnegative
    omega
  rw [value?_of_isWhole hwhole, if_neg hpositive, integer_ofInteger]

theorem value?_negativeZero : negativeZero.value? = some (.float (.zero true)) := by
  decide +kernel

end Numeral

/-! ## Values -/

namespace Source

mutual

/-- Whether all numerals of an outline are integers that fit 64 bits. -/
def isWhole : Source → Bool
  | .numeral n => n.isWhole
  | .array items _ => itemsWhole items
  | .object members _ => membersWhole members
  | _ => true

/-- Whether all numerals of some items are integers that fit 64 bits. -/
def itemsWhole : List Source → Bool
  | [] => true
  | item :: rest => item.isWhole && itemsWhole rest

/-- Whether all numerals in the values of some members are integers that fit 64 bits. -/
def membersWhole : List (Option String × Source) → Bool
  | [] => true
  | (_, item) :: rest => item.isWhole && membersWhole rest

end

theorem itemsWhole_iff
    {items : List Source} :
    itemsWhole items = true ↔ ∀ item ∈ items, item.isWhole = true := by
  induction items with
  | nil => simp [itemsWhole]
  | cons item rest ih => rw [itemsWhole, Bool.and_eq_true, List.forall_mem_cons, ih]

theorem membersWhole_iff
    {members : List (Option String × Source)} :
    membersWhole members = true ↔ ∀ member ∈ members, member.2.isWhole = true := by
  induction members with
  | nil => simp [membersWhole]
  | cons member rest ih => rw [membersWhole, Bool.and_eq_true, List.forall_mem_cons, ih]

end Source

/-- A value that is nested at most so deep, and whose numbers are read back for certain. -/
inductive Stable : Nat → Value → Prop where
  | null {depth : Nat} : Stable depth .null
  | bool {depth : Nat} (b : Bool) : Stable depth (.bool b)
  | number {depth : Nat} {n : Number} (h : n.Stable) : Stable depth (.number n)
  | string {depth : Nat} (s : String) : Stable depth (.string s)
  | array {depth : Nat} {items : List Value} (h : ∀ v ∈ items, Stable depth v) :
      Stable (depth + 1) (.array items)
  | object {depth : Nat} {members : List (String × Value)}
      (h : ∀ e ∈ members, Stable depth e.2) :
      Stable (depth + 1) (.object members)

variable {depth : Nat} {v : Value}

theorem Stable.integral
    (h : Stable depth v) :
    Integral v := by
  induction h with
  | null => exact .null
  | bool b => exact .bool b
  | number h =>
      cases h with
      | integer => exact .integer _
      | negativeZero => exact .negativeZero
  | string s => exact .string s
  | array _ ih => exact .array ih
  | object _ ih => exact .object ih

namespace Source

theorem itemValues_itemSources
    {items : List Value}
    (h : ∀ v ∈ items, v.source.toValue depth = .ok v) :
    itemValues depth (itemSources items) = .ok items := by
  induction items with
  | nil => rw [itemSources, itemValues]
  | cons v rest ih =>
      rw [List.forall_mem_cons] at h
      rw [itemSources, itemValues, h.1, ih h.2]
      rfl

theorem memberValues_memberSources
    {members : List (String × Value)}
    (h : ∀ e ∈ members, e.2.source.toValue depth = .ok e.2) :
    memberValues depth (memberSources members) = .ok members := by
  induction members with
  | nil => rw [memberSources, memberValues]
  | cons e rest ih =>
      obtain ⟨key, v⟩ := e
      rw [List.forall_mem_cons] at h
      rw [memberSources, memberValues, h.1, ih h.2]
      rfl

/-- The outline of the text of a value has the value. -/
theorem toValue_source
    (h : Stable depth v) :
    v.source.toValue depth = .ok v := by
  induction h with
  | null | bool b | string s => rw [Value.source, toValue]
  | number h =>
      cases h with
      | integer hmin hmax => rw [Value.source, toValue, Numeral.value?_ofInteger hmin hmax]
      | negativeZero => rw [Value.source, toValue, Numeral.value?_negativeZero]
  | array _ ih =>
      rw [Value.source, toValue, itemValues_itemSources ih]
      rfl
  | object _ ih =>
      rw [Value.source, toValue, memberValues_memberSources ih]
      rfl

mutual

/-- The value of an outline whose numerals are integers is read back. -/
theorem stable_of_toValue
    {depth : Nat} {v : Value} (s : Source)
    (hwhole : s.isWhole = true) (h : s.toValue depth = .ok v) :
    Stable depth v := by
  match s with
  | .null | .bool _ | .string (some _) =>
      rw [toValue] at h
      cases h
      constructor
  | .string none | .broken =>
      rw [toValue] at h
      cases h
  | .numeral n =>
      rw [toValue] at h
      split at h
      next k hk =>
        cases h
        exact .number (Numeral.stable_of_isWhole hwhole hk)
      next => cases h
  | .array items closed =>
      obtain ⟨_, inner, rfl, values, hvalues, rfl⟩ := toValue_array_eq_ok_iff.1 h
      exact .array (stable_of_itemValues items hwhole hvalues)
  | .object members closed =>
      obtain ⟨_, inner, rfl, values, hvalues, rfl⟩ := toValue_object_eq_ok_iff.1 h
      exact .object (stable_of_memberValues members hwhole hvalues)

theorem stable_of_itemValues
    {depth : Nat} {values : List Value} (items : List Source)
    (hwhole : itemsWhole items = true) (h : itemValues depth items = .ok values) :
    ∀ v ∈ values, Stable depth v := by
  match items with
  | [] =>
      rw [itemValues] at h
      cases h
      exact fun _ hv => nomatch hv
  | item :: rest =>
      rw [itemsWhole, Bool.and_eq_true] at hwhole
      rw [itemValues] at h
      obtain ⟨v, hv, h⟩ := bind_eq_ok.1 h
      obtain ⟨others, hothers, h⟩ := bind_eq_ok.1 h
      cases h
      rw [List.forall_mem_cons]
      exact ⟨stable_of_toValue item hwhole.1 hv, stable_of_itemValues rest hwhole.2 hothers⟩

theorem stable_of_memberValues
    {depth : Nat} {values : List (String × Value)} (members : List (Option String × Source))
    (hwhole : membersWhole members = true) (h : memberValues depth members = .ok values) :
    ∀ e ∈ values, Stable depth e.2 := by
  match members with
  | [] =>
      rw [memberValues] at h
      cases h
      exact fun _ he => nomatch he
  | (none, _) :: _ =>
      rw [memberValues] at h
      cases h
  | (some key, item) :: rest =>
      rw [membersWhole, Bool.and_eq_true] at hwhole
      rw [memberValues] at h
      obtain ⟨v, hv, h⟩ := bind_eq_ok.1 h
      obtain ⟨others, hothers, h⟩ := bind_eq_ok.1 h
      cases h
      rw [List.forall_mem_cons]
      exact ⟨stable_of_toValue item hwhole.1 hv, stable_of_memberValues rest hwhole.2 hothers⟩

end

end Source

end Json

end LibraryModels
