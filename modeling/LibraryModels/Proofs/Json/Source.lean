import LibraryModels.Json.Source
import Mathlib.Tactic.IntervalCases

/-!
# Written values read back

The compact text of a value is read as the outline of that value, whatever follows it.  Strings are
read back character by character, since an escape is recognised by what it begins with and says by
itself where it ends.  Of all doubles only the negative zero is considered: the others are not
determined by how they are written.
-/

namespace LibraryModels.Json

/-! ## Strings -/

namespace Source

/-- The element that a written character is read as. -/
def pieceOf (c : Char) : Piece :=
  if c.toNat < 0x20 ∧ c ∉ ['\x08', '\x0c', '\n', '\r', '\t'] then .unit c.toNat else .char c

theorem hexNumber?_control :
    ∀ n < 0x20,
      Text.hexNumber? ['0', '0', Nat.digitChar (n / 16), Nat.digitChar (n % 16)] = some n := by
  decide

theorem readPieces_short
    {e c : Char} {cs : List Char}
    (h : shortEscape? e = some c) :
    readPieces ('\\' :: e :: cs) = (readPieces cs).map fun r => (.char c :: r.1, r.2) := by
  have he : e ≠ 'u' := by
    rintro rfl
    cases h
  rw [readPieces]
  · rw [h]
    rcases readPieces cs with _ | ⟨pieces, rest⟩ <;> rfl
  · intro a b c d rest heq _
    exact he heq

theorem readPieces_unit
    {a b c d : Char} {n : Nat} {cs : List Char}
    (h : Text.hexNumber? [a, b, c, d] = some n) :
    readPieces ('\\' :: 'u' :: a :: b :: c :: d :: cs) =
      (readPieces cs).map fun r => (.unit n :: r.1, r.2) := by
  rw [readPieces, h]
  rcases readPieces cs with _ | ⟨pieces, rest⟩ <;> rfl

theorem readPieces_direct
    {c : Char} {cs : List Char}
    (hquote : c ≠ '"') (hescape : c ≠ '\\') (hcontrol : ¬c.toNat < 0x20) :
    readPieces (c :: cs) = (readPieces cs).map fun r => (.char c :: r.1, r.2) := by
  rw [readPieces]
  · rw [if_neg (not_or.mpr ⟨hcontrol, hescape⟩)]
    rcases readPieces cs with _ | ⟨pieces, rest⟩ <;> rfl
  · exact hquote
  · intro a b c d rest heq
    exact absurd heq hescape
  · intro e rest heq
    exact absurd heq hescape

theorem readPieces_escapedChar (c : Char) (cs : List Char) :
    readPieces (escapedChar c ++ cs) =
      (readPieces cs).map fun r => (pieceOf c :: r.1, r.2) := by
  -- one case for each way in which a character is written
  unfold escapedChar
  split
  case h_1 | h_2 | h_3 | h_4 | h_5 | h_6 | h_7 => exact readPieces_short rfl
  case h_8 hquote hescape hb hf hn hr ht =>
    split
    · next hcontrol =>
        have hpiece : pieceOf c = .unit c.toNat := by
          rw [pieceOf, if_pos]
          refine ⟨hcontrol, ?_⟩
          simp only [List.mem_cons, List.not_mem_nil, or_false, not_or]
          exact ⟨hb, hf, hn, hr, ht⟩
        rw [hpiece]
        exact readPieces_unit (hexNumber?_control c.toNat hcontrol)
    · next hcontrol =>
        have hpiece : pieceOf c = .char c := by
          rw [pieceOf, if_neg fun h => hcontrol h.1]
        rw [hpiece]
        exact readPieces_direct hquote hescape hcontrol

theorem readPieces_escaped (chars rest : List Char) :
    readPieces (chars.flatMap escapedChar ++ '"' :: rest) = some (chars.map pieceOf, rest) := by
  induction chars with
  | nil => rfl
  | cons c chars ih =>
      rw [List.flatMap_cons, List.append_assoc, readPieces_escapedChar, ih]
      rfl

/-- The code unit of a control is no half of a surrogate pair. -/
theorem decodePieces_unit
    {n : Nat} (pieces : List Piece)
    (h : n < 0x20) :
    decodePieces (.unit n :: pieces) = (decodePieces pieces).map (Char.ofNat n :: ·) := by
  have hhigh : isHighSurrogate n = false := by
    simp only [isHighSurrogate, decide_eq_false_iff_not]
    omega
  have hlow : isLowSurrogate n = false := by
    simp only [isLowSurrogate, decide_eq_false_iff_not]
    omega
  rcases pieces with _ | ⟨_ | m, pieces⟩
  all_goals simp [decodePieces, hhigh, hlow]

theorem decodePieces_pieceOf (chars : List Char) :
    decodePieces (chars.map pieceOf) = some chars := by
  induction chars with
  | nil => rfl
  | cons c chars ih =>
      rw [List.map_cons, pieceOf]
      split
      · next h => rw [decodePieces_unit _ h.1, ih, Char.ofNat_toNat, Option.map_some]
      · rw [decodePieces, ih, Option.map_some]

theorem readString_escaped (s : String) (rest : List Char) :
    readString (s.toList.flatMap escapedChar ++ '"' :: rest) = some (some s, rest) := by
  simp only [readString, readPieces_escaped, Option.map_some, decodePieces_pieceOf,
    String.ofList_toList]

end Source

/-! ## Integers -/

namespace Numeral

/-- The numeral of an integer. -/
def ofInteger (n : Int) : Numeral where
  negative := n < 0
  whole := Nat.toDigits 10 n.natAbs
  fraction := []
  exponent := none

/-- What follows does not go on with a numeral. -/
def Ends (rest : List Char) : Prop :=
  ∀ c ∈ rest.head?, c.isDigit = false ∧ c ∉ ['.', 'e', 'E']

theorem head?_toDigits_ne_zero
    {n : Nat}
    (h : n ≠ 0) :
    (Nat.toDigits 10 n).head? ≠ some '0' := by
  induction n using Nat.strongRecOn with
  | ind n ih =>
      rw [Nat.toDigits_eq_if (by decide)]
      split
      · next hn =>
          interval_cases n
          all_goals simp_all [Nat.digitChar]
      · next hn =>
          rw [List.head?_append, Option.or_of_isSome (by simp [Nat.toDigits_ne_nil])]
          exact ih (n / 10) (by omega) (by omega)

theorem spanDigits_toDigits
    {rest : List Char} (n : Nat)
    (h : Ends rest) :
    spanDigits (Nat.toDigits 10 n ++ rest) = (Nat.toDigits 10 n, rest) := by
  have hdigits : ∀ c ∈ Nat.toDigits 10 n, c.isDigit = true := by
    intro c hc
    exact Nat.isDigit_of_mem_toDigits (by decide) (by decide) hc
  have hrest : rest.takeWhile Char.isDigit = [] ∧ rest.dropWhile Char.isDigit = rest := by
    rcases rest with _ | ⟨c, rest⟩
    · exact ⟨rfl, rfl⟩
    · have hc := (h c rfl).1
      simp [hc]
  rw [spanDigits, List.takeWhile_append_of_pos hdigits, List.dropWhile_append_of_pos hdigits,
    hrest.1, hrest.2, List.append_nil]

theorem readWhole_toDigits
    {rest : List Char} (n : Nat)
    (h : Ends rest) :
    readWhole (Nat.toDigits 10 n ++ rest) = some (Nat.toDigits 10 n, rest) := by
  rw [readWhole, spanDigits_toDigits n h]
  by_cases hn : n = 0
  · rw [hn]
    rfl
  · have hzero := head?_toDigits_ne_zero hn
    split
    · next heq => exact absurd (congrArg Prod.fst heq) Nat.toDigits_ne_nil
    · next heq =>
        rw [(Prod.mk.inj heq).1] at hzero
        exact absurd rfl hzero
    · next heq => rw [heq]

theorem exists_toDigits (n : Nat) :
    ∃ d ds, Nat.toDigits 10 n = d :: ds ∧ d.isDigit = true := by
  obtain ⟨d, ds, hds⟩ := List.exists_cons_of_ne_nil (Nat.toDigits_ne_nil (b := 10) (n := n))
  refine ⟨d, ds, hds, ?_⟩
  apply Nat.isDigit_of_mem_toDigits (b := 10) (n := n) (by decide) (by decide)
  rw [hds]
  exact List.mem_cons_self

/-- The text of an integer begins with a digit or a sign. -/
theorem exists_integerText (n : Int) :
    ∃ c cs, (Number.integerText n).toList = c :: cs ∧ (c.isDigit = true ∨ c = '-') := by
  obtain ⟨d, ds, hds, hd⟩ := exists_toDigits n.natAbs
  rw [Number.integerText, Decimal.Double.withSign, String.toList_ofList, hds]
  by_cases hn : n < 0
  · exact ⟨'-', d :: ds, by simp [hn], .inr rfl⟩
  · exact ⟨d, ds, by simp [hn], .inl hd⟩

theorem readFraction_of_ends
    {rest : List Char}
    (h : Ends rest) :
    readFraction rest = some ([], rest) := by
  rcases rest with _ | ⟨c, rest⟩
  · rfl
  · have hc := (h c rfl).2
    have hpoint : c ≠ '.' := by
      rintro rfl
      exact hc (by decide)
    simp [readFraction, hpoint]

theorem readExponent_of_ends
    {rest : List Char}
    (h : Ends rest) :
    readExponent rest = some (none, rest) := by
  rcases rest with _ | ⟨c, rest⟩
  · rfl
  · have hc := (h c rfl).2
    have he : ¬(c = 'e' ∨ c = 'E') := by
      rintro (rfl | rfl)
      · exact hc (by decide)
      · exact hc (by decide)
    simp [readExponent, he]

theorem read_integerText
    {rest : List Char} (n : Int)
    (h : Ends rest) :
    read ((Number.integerText n).toList ++ rest) = some (ofInteger n, rest) := by
  have hsign : readSign ((Number.integerText n).toList ++ rest) =
      (decide (n < 0), Nat.toDigits 10 n.natAbs ++ rest) := by
    obtain ⟨d, ds, hds, hd⟩ := exists_toDigits n.natAbs
    have hdash : d ≠ '-' := by
      rintro rfl
      exact absurd hd (by decide)
    rw [Number.integerText, Decimal.Double.withSign, String.toList_ofList, hds]
    by_cases hn : n < 0
    · simp [hn, readSign]
    · simp [hn, readSign, hdash]
  simp [read, hsign, readWhole_toDigits _ h, readFraction_of_ends h, readExponent_of_ends h,
    ofInteger]

/-- The numeral of the negative zero, which is written with a point. -/
def negativeZero : Numeral where
  negative := true
  whole := ['0']
  fraction := ['0']
  exponent := none

theorem read_negativeZero
    {rest : List Char}
    (h : Ends rest) :
    read ('-' :: '0' :: '.' :: '0' :: rest) = some (negativeZero, rest) := by
  have hdigits : spanDigits ('0' :: rest) = (['0'], rest) := spanDigits_toDigits 0 h
  have hwhole : readWhole ('0' :: '.' :: '0' :: rest) = some (['0'], '.' :: '0' :: rest) := rfl
  have hfraction : readFraction ('.' :: '0' :: rest) = some (['0'], rest) := by
    rw [readFraction, hdigits]
  simp [read, readSign, hwhole, hfraction, readExponent_of_ends h, negativeZero]

end Numeral

/-! ## Values -/

mutual

/-- The outline of the text of a value, in which the only double is the negative zero. -/
def Value.source : Value → Source
  | .null => .null
  | .bool b => .bool b
  | .number (.integer n) => .numeral (Numeral.ofInteger n)
  | .number (.float _) => .numeral Numeral.negativeZero
  | .string s => .string (some s)
  | .array items => .array (itemSources items) true
  | .object members => .object (memberSources members) true

/-- The outlines of items. -/
def itemSources : List Value → List Source
  | [] => []
  | item :: rest => item.source :: itemSources rest

/-- The names and outlines of members. -/
def memberSources : List (String × Value) → List (Option String × Source)
  | [] => []
  | (key, value) :: rest => (some key, value.source) :: memberSources rest

end

theorem memberSources_eq_map (members : List (String × Value)) :
    memberSources members = members.map fun e => (some e.1, e.2.source) := by
  induction members with
  | nil => rfl
  | cons e rest ih => rw [memberSources, List.map_cons, ih]

/-- A value whose numbers are integers, or the negative zero. -/
inductive Integral : Value → Prop where
  | null : Integral .null
  | bool (b : Bool) : Integral (.bool b)
  | integer (n : Int) : Integral (.number (.integer n))
  | negativeZero : Integral (.number (.float (.zero true)))
  | string (s : String) : Integral (.string s)
  | array {items : List Value} (h : ∀ v ∈ items, Integral v) : Integral (.array items)
  | object {members : List (String × Value)} (h : ∀ e ∈ members, Integral e.2) :
      Integral (.object members)

attribute [simp] Integral.null Integral.bool Integral.integer Integral.negativeZero Integral.string

@[simp]
theorem integral_array_iff
    {items : List Value} :
    Integral (.array items) ↔ ∀ v ∈ items, Integral v :=
  ⟨fun | .array h => h, .array⟩

@[simp]
theorem integral_object_iff
    {members : List (String × Value)} :
    Integral (.object members) ↔ ∀ e ∈ members, Integral e.2 :=
  ⟨fun | .object h => h, .object⟩

namespace Source

variable {v : Value} {c : Char} {cs rest : List Char} {fuel : Nat}

/-- What a value, but no blank and no end of an array, may begin with. -/
def StartsValue (cs : List Char) : Prop :=
  ∃ c rest, cs = c :: rest ∧ isSpace c = false ∧ c ≠ ']'

theorem skipSpace_cons
    (h : isSpace c = false) :
    skipSpace (c :: cs) = c :: cs := by
  rw [skipSpace, List.dropWhile_cons_of_neg]
  rw [h]
  decide

/-- Nothing that begins an integer is blank. -/
theorem isSpace_eq_false
    (h : c.isDigit = true ∨ c = '-') :
    isSpace c = false := by
  simp only [isSpace, decide_eq_false_iff_not]
  rintro (rfl | rfl | rfl | rfl)
  all_goals exact absurd h (by decide)

theorem StartsValue.append
    (h : StartsValue cs) (more : List Char) :
    StartsValue (cs ++ more) := by
  obtain ⟨c, rest, rfl, hspace, hend⟩ := h
  exact ⟨c, rest ++ more, rfl, hspace, hend⟩

theorem chars_negativeZero :
    (Value.number (.float (.zero true))).chars = ['-', '0', '.', '0'] := by
  decide +kernel

theorem startsValue_chars
    (h : Integral v) :
    StartsValue v.chars := by
  rcases h with _ | b | n | _ | s | items | members
  · exact ⟨'n', _, rfl, by decide, by decide⟩
  · rcases b
    · exact ⟨'f', _, rfl, by decide, by decide⟩
    · exact ⟨'t', _, rfl, by decide, by decide⟩
  · obtain ⟨c, cs, hcs, hc⟩ := Numeral.exists_integerText n
    refine ⟨c, cs, ?_, ?_, ?_⟩
    · rw [Value.chars, Number.text, hcs]
    · exact isSpace_eq_false hc
    · rintro rfl
      exact absurd hc (by decide)
  · exact ⟨'-', _, chars_negativeZero, by decide, by decide⟩
  · exact ⟨'"', _, rfl, by decide, by decide⟩
  · exact ⟨'[', _, rfl, by decide, by decide⟩
  · exact ⟨'\x7b', _, rfl, by decide, by decide⟩

theorem readValue_numeral
    (h : c.isDigit = true ∨ c = '-') :
    readValue (fuel + 1) (c :: cs) =
      Reading.ofOption ((Numeral.read (c :: cs)).map fun (n, rest) => (.numeral n, rest)) := by
  rw [readValue, skipSpace_cons (isSpace_eq_false h)]
  split
  case h_7 => rfl
  -- nothing else begins with a digit or a sign
  all_goals
    next heq =>
      cases heq
      exact absurd h (by decide)

theorem readValue_array
    (h : StartsValue cs) :
    readValue (fuel + 1) ('[' :: cs) =
      (.array (readItems fuel cs).1 (readItems fuel cs).2.isSome, (readItems fuel cs).2) := by
  obtain ⟨c, cs, rfl, hspace, hend⟩ := h
  rw [readValue, skipSpace_cons (by decide)]
  simp only [skipSpace_cons hspace]
  split
  · next heq => exact absurd (List.cons.inj heq).1 hend
  · rfl

theorem readValue_object :
    readValue (fuel + 1) ('\x7b' :: '"' :: cs) =
      (.object (readMembers fuel ('"' :: cs)).1 (readMembers fuel ('"' :: cs)).2.isSome,
        (readMembers fuel ('"' :: cs)).2) := by
  rw [readValue, skipSpace_cons (by decide)]
  simp only [skipSpace_cons (c := '"') rfl]
  rfl

theorem ends_cons
    (h : c ∈ [',', ']', '\x7d']) :
    Numeral.Ends (c :: cs) := by
  intro d hd
  cases hd
  simp only [List.mem_cons, List.not_mem_nil, or_false] at h
  rcases h with rfl | rfl | rfl
  all_goals decide

/-! ### Items and members -/

theorem startsValue_items
    {item : Value} {items : List Value}
    (h : StartsValue item.chars) :
    StartsValue (commaSeparated (itemChars (item :: items))) := by
  rcases items with _ | ⟨next, items⟩
  · exact h
  · exact h.append _

theorem readItems_chars
    {item : Value} {items : List Value}
    (hread : ∀ v ∈ item :: items, ∀ fuel rest, v.chars.length < fuel → Numeral.Ends rest →
      readValue fuel (v.chars ++ rest) = (v.source, some rest))
    (hstart : ∀ v ∈ item :: items, StartsValue v.chars)
    (hfuel : (commaSeparated (itemChars (item :: items))).length + 1 < fuel) :
    readItems fuel (commaSeparated (itemChars (item :: items)) ++ ']' :: rest) =
      (itemSources (item :: items), some rest) := by
  induction items generalizing item fuel with
  | nil =>
      obtain ⟨fuel, rfl⟩ : ∃ n, fuel = n + 1 := ⟨fuel - 1, by omega⟩
      have hitem := hread item List.mem_cons_self fuel (']' :: rest) (by
        simp only [itemChars, commaSeparated] at hfuel
        omega) (ends_cons (by decide))
      rw [readItems, itemChars, itemChars, commaSeparated, hitem]
      rfl
  | cons next items ih =>
      obtain ⟨fuel, rfl⟩ : ∃ n, fuel = n + 1 := ⟨fuel - 1, by omega⟩
      have htext : commaSeparated (itemChars (item :: next :: items)) =
          item.chars ++ ',' :: commaSeparated (itemChars (next :: items)) := rfl
      rw [htext, List.length_append, List.length_cons] at hfuel
      have hitem := hread item List.mem_cons_self fuel
        (',' :: (commaSeparated (itemChars (next :: items)) ++ ']' :: rest)) (by omega)
        (ends_cons (by decide))
      have hshort : (commaSeparated (itemChars (next :: items))).length + 1 < fuel := by omega
      have hothers := ih (fun v hv => hread v (List.mem_cons_of_mem item hv))
        (fun v hv => hstart v (List.mem_cons_of_mem item hv)) hshort
      have hnext := hstart next (List.mem_cons_of_mem item List.mem_cons_self)
      obtain ⟨c, cs, hcs, hspace, hend⟩ := (startsValue_items hnext).append (']' :: rest)
      rw [hcs] at hitem hothers
      rw [htext, List.append_assoc, List.cons_append, hcs, readItems, hitem]
      simp only [skipSpace_cons (c := ',') rfl, skipSpace_cons hspace]
      split
      · next heq => cases heq
      · next heq => exact absurd (List.cons.inj heq).1 hend
      · rw [hothers]
        rfl

theorem exists_members (member : String × Value) (members : List (String × Value)) :
    ∃ cs, commaSeparated (memberChars (member :: members)) = '"' :: cs := by
  rcases members with _ | ⟨next, members⟩
  · exact ⟨_, rfl⟩
  · exact ⟨_, rfl⟩

theorem memberText_append (key : String) (more : List Char) :
    stringText key ++ ':' :: more =
      '"' :: (key.toList.flatMap escapedChar ++ '"' :: ':' :: more) := by
  simp [stringText]

theorem readMembers_last
    (key : String)
    (hvalue : readValue fuel (v.chars ++ '\x7d' :: rest) = (v.source, some ('\x7d' :: rest))) :
    readMembers (fuel + 1) (stringText key ++ ':' :: (v.chars ++ '\x7d' :: rest)) =
      ([(some key, v.source)], some rest) := by
  rw [memberText_append, readMembers, skipSpace_cons rfl]
  simp only [readString_escaped, skipSpace_cons (c := ':') rfl, hvalue]
  rfl

theorem readMembers_next
    (key : String)
    (hvalue : readValue fuel (v.chars ++ ',' :: rest) = (v.source, some (',' :: rest))) :
    readMembers (fuel + 1) (stringText key ++ ':' :: (v.chars ++ ',' :: rest)) =
      ((some key, v.source) :: (readMembers fuel rest).1, (readMembers fuel rest).2) := by
  rw [memberText_append, readMembers, skipSpace_cons rfl]
  simp only [readString_escaped, skipSpace_cons (c := ':') rfl, hvalue]
  rfl

theorem readMembers_chars
    {member : String × Value} {members : List (String × Value)}
    (hread : ∀ e ∈ member :: members, ∀ fuel rest, e.2.chars.length < fuel → Numeral.Ends rest →
      readValue fuel (e.2.chars ++ rest) = (e.2.source, some rest))
    (hfuel : (commaSeparated (memberChars (member :: members))).length + 1 < fuel) :
    readMembers fuel (commaSeparated (memberChars (member :: members)) ++ '\x7d' :: rest) =
      (memberSources (member :: members), some rest) := by
  induction members generalizing member fuel with
  | nil =>
      obtain ⟨fuel, rfl⟩ : ∃ n, fuel = n + 1 := ⟨fuel - 1, by omega⟩
      obtain ⟨key, v⟩ := member
      have htext : commaSeparated (memberChars [(key, v)]) = stringText key ++ ':' :: v.chars := rfl
      rw [htext, List.length_append, List.length_cons] at hfuel
      have hvalue := hread (key, v) List.mem_cons_self fuel ('\x7d' :: rest)
        (by simp only; omega) (ends_cons (by decide))
      rw [htext, List.append_assoc, List.cons_append, readMembers_last key hvalue]
      rfl
  | cons next members ih =>
      obtain ⟨fuel, rfl⟩ : ∃ n, fuel = n + 1 := ⟨fuel - 1, by omega⟩
      obtain ⟨key, v⟩ := member
      have htext : commaSeparated (memberChars ((key, v) :: next :: members)) =
          (stringText key ++ ':' :: v.chars) ++
            ',' :: commaSeparated (memberChars (next :: members)) :=
        rfl
      rw [htext, List.length_append, List.length_append, List.length_cons,
        List.length_cons] at hfuel
      have hvalue := hread (key, v) List.mem_cons_self fuel
        (',' :: (commaSeparated (memberChars (next :: members)) ++ '\x7d' :: rest))
        (by simp only; omega) (ends_cons (by decide))
      have hshort : (commaSeparated (memberChars (next :: members))).length + 1 < fuel := by omega
      have hothers := ih (fun e he => hread e (List.mem_cons_of_mem _ he)) hshort
      rw [htext, List.append_assoc, List.append_assoc, List.cons_append, List.cons_append,
        readMembers_next key hvalue, hothers]
      rfl

/-- The text of a value is read as its outline, whatever follows that is no part of a numeral. -/
theorem readValue_chars
    (h : Integral v) (hfuel : v.chars.length < fuel) (hrest : Numeral.Ends rest) :
    readValue fuel (v.chars ++ rest) = (v.source, some rest) := by
  -- on the value; a value inside has a shorter text, so less fuel will do
  induction h generalizing fuel rest with
    obtain ⟨fuel, rfl⟩ : ∃ n, fuel = n + 1 := ⟨fuel - 1, by omega⟩
  | null => rfl
  | bool b => rcases b <;> rfl
  | integer n =>
      obtain ⟨c, cs, hcs, hc⟩ := Numeral.exists_integerText n
      have hread := Numeral.read_integerText n hrest
      rw [Value.chars, Number.text, hcs, List.cons_append, readValue_numeral hc]
      rw [hcs, List.cons_append] at hread
      rw [hread]
      rfl
  | negativeZero =>
      have htext : (Value.number (.float (.zero true))).chars ++ rest =
          '-' :: '0' :: '.' :: '0' :: rest := by
        rw [chars_negativeZero]
        rfl
      rw [htext, readValue_numeral (.inr rfl), Numeral.read_negativeZero hrest]
      rfl
  | string s =>
      have htext : (Value.string s).chars ++ rest =
          '"' :: (s.toList.flatMap escapedChar ++ '"' :: rest) := by
        simp [Value.chars, stringText]
      rw [htext, readValue, skipSpace_cons rfl]
      simp only [readString_escaped]
      rfl
  | @array items h ih =>
      rcases items with _ | ⟨item, items⟩
      · rfl
      · have htext : (Value.array (item :: items)).chars =
            '[' :: (commaSeparated (itemChars (item :: items)) ++ [']']) := rfl
        rw [htext, List.length_cons, List.length_append] at hfuel
        have hstart := fun v hv => startsValue_chars (h v hv)
        have hitems := @readItems_chars rest fuel _ _
          (fun v hv fuel rest => ih v hv) hstart (by simpa using hfuel)
        rw [htext, List.cons_append, List.append_assoc, List.singleton_append,
          readValue_array ((startsValue_items (hstart item List.mem_cons_self)).append _), hitems]
        rfl
  | @object members h ih =>
      rcases members with _ | ⟨member, members⟩
      · rfl
      · have htext : (Value.object (member :: members)).chars =
            '\x7b' :: (commaSeparated (memberChars (member :: members)) ++ ['\x7d']) := rfl
        rw [htext, List.length_cons, List.length_append] at hfuel
        have hmembers := @readMembers_chars rest fuel _ _
          (fun e he fuel rest => ih e he) (by simpa using hfuel)
        obtain ⟨cs, hcs⟩ := exists_members member members
        rw [hcs, List.cons_append] at hmembers
        rw [htext, List.cons_append, List.append_assoc, List.singleton_append, hcs,
          List.cons_append, readValue_object, hmembers]
        rfl

theorem ofText_text
    (h : Integral v) :
    ofText v.text = (v.source, true) := by
  have hread := readValue_chars h (Nat.lt_succ_self _) (fun _ hc => nomatch hc : Numeral.Ends [])
  rw [List.append_nil] at hread
  rw [ofText, Value.text, String.toList_ofList]
  simp only [hread]
  rfl

end Source

end LibraryModels.Json
