import LibraryModels.Text.Bytes
import LibraryModels.Text.Utf8

/-!
# Texts and their bytes

The bytes of a text are read back as the text: every character is one piece, of the length that its
first byte says, and none of its bytes begins anything else.
-/

namespace LibraryModels.Text

theorem bytes_eq_flatMap (s : String) :
    bytes s = s.toList.flatMap String.utf8EncodeChar := by
  rw [bytes, ← String.utf8Encode_toList]
  exact List.toList_data_toByteArray

/-- A text has as many bytes as characters or more. -/
theorem length_toList_le (s : String) :
    s.toList.length ≤ (bytes s).length := by
  rw [bytes_eq_flatMap]
  induction s.toList with
  | nil => exact Nat.zero_le _
  | cons c cs ih =>
      have hchar : 0 < (String.utf8EncodeChar c).length := by
        rw [String.length_utf8EncodeChar]
        exact c.utf8Size_pos
      rw [List.flatMap_cons, List.length_append, List.length_cons]
      omega

namespace Utf8

variable {a b c d : UInt8} {n : Nat} {rest : List UInt8}

/-- A byte that goes on with a character holds six bits of it. -/
theorem continuation (n : Nat) :
    isContinuation (UInt8.ofNat (n % 64 + 128)) = true ∧
      low (UInt8.ofNat (n % 64 + 128)) = n % 64 := by
  have hbyte : (UInt8.ofNat (n % 64 + 128)).toNat = n % 64 + 128 :=
    UInt8.toNat_ofNat_of_lt' (by show _ < 256; omega)
  constructor
  · simp [isContinuation, UInt8.le_iff_toNat_le, UInt8.lt_iff_toNat_lt]
    omega
  · rw [low, hbyte]
    omega

/-! ## One piece -/

theorem pieces_one
    (ha : a.toNat < 128) :
    pieces (a :: rest) = .char (Char.ofNat a.toNat) :: pieces rest := by
  have hone : a < 0x80 := UInt8.lt_iff_toNat_lt.mpr ha
  rw [pieces.eq_def]
  simp [hone]

theorem pieces_two
    (hleast : 194 ≤ a.toNat) (hmost : a.toNat < 224) (hb : isContinuation b = true) :
    pieces (a :: b :: rest) =
      .char (Char.ofNat (a.toNat % 32 * 64 + low b)) :: pieces rest := by
  have hone : ¬ a < 0x80 := by
    rw [UInt8.lt_iff_toNat_lt]
    exact fun h => absurd (Nat.lt_trans h (by decide : 128 < 194)) (Nat.not_lt.mpr hleast)
  have htwo : 0xC2 ≤ a ∧ a < 0xE0 :=
    ⟨UInt8.le_iff_toNat_le.mpr hleast, UInt8.lt_iff_toNat_lt.mpr hmost⟩
  rw [pieces.eq_def]
  simp [hone, htwo, hb]

theorem pieces_three
    (hleast : 224 ≤ a.toNat) (hmost : a.toNat < 240) (hb : isSecondOfThree a b = true)
    (hc : isContinuation c = true) :
    pieces (a :: b :: c :: rest) =
      .char (Char.ofNat ((a.toNat % 16 * 64 + low b) * 64 + low c)) :: pieces rest := by
  have hone : ¬ a < 0x80 := by
    rw [UInt8.lt_iff_toNat_lt]
    exact fun h => absurd (Nat.lt_trans h (by decide : 128 < 224)) (Nat.not_lt.mpr hleast)
  have htwo : ¬ (0xC2 ≤ a ∧ a < 0xE0) := fun h =>
    absurd (UInt8.lt_iff_toNat_lt.mp h.2) (Nat.not_lt.mpr hleast)
  have hthree : 0xE0 ≤ a ∧ a < 0xF0 :=
    ⟨UInt8.le_iff_toNat_le.mpr hleast, UInt8.lt_iff_toNat_lt.mpr hmost⟩
  rw [pieces.eq_def]
  simp only [hone, htwo, hthree, hb, hc, and_self, if_true, if_false]

theorem pieces_four
    (hleast : 240 ≤ a.toNat) (hmost : a.toNat < 245) (hb : isSecondOfFour a b = true)
    (hc : isContinuation c = true) (hd : isContinuation d = true) :
    pieces (a :: b :: c :: d :: rest) =
      .char (Char.ofNat (((a.toNat % 8 * 64 + low b) * 64 + low c) * 64 + low d)) ::
        pieces rest := by
  have hone : ¬ a < 0x80 := by
    rw [UInt8.lt_iff_toNat_lt]
    exact fun h => absurd (Nat.lt_trans h (by decide : 128 < 240)) (Nat.not_lt.mpr hleast)
  have htwo : ¬ (0xC2 ≤ a ∧ a < 0xE0) := fun h =>
    absurd (Nat.lt_trans (UInt8.lt_iff_toNat_lt.mp h.2) (by decide : 224 < 240))
      (Nat.not_lt.mpr hleast)
  have hthree : ¬ (0xE0 ≤ a ∧ a < 0xF0) := fun h =>
    absurd (UInt8.lt_iff_toNat_lt.mp h.2) (Nat.not_lt.mpr hleast)
  have hfour : 0xF0 ≤ a ∧ a < 0xF5 :=
    ⟨UInt8.le_iff_toNat_le.mpr hleast, UInt8.lt_iff_toNat_lt.mpr hmost⟩
  rw [pieces.eq_def]
  simp only [hone, htwo, hthree, hfour, hb, hc, hd, and_self, if_true, if_false]

/-! ## Characters -/

theorem isSecondOfThree_of_bounds
    (hb : isContinuation b = true) (hlow : a.toNat = 224 → 160 ≤ b.toNat)
    (hhigh : a.toNat = 237 → b.toNat < 160) :
    isSecondOfThree a b = true := by
  have hbounds := hb
  simp only [isContinuation, decide_eq_true_eq] at hbounds
  rw [isSecondOfThree]
  by_cases hleast : a = 0xE0
  · subst hleast
    rw [if_pos rfl]
    exact decide_eq_true ⟨UInt8.le_iff_toNat_le.mpr (hlow rfl), hbounds.2⟩
  · by_cases hmost : a = 0xED
    · subst hmost
      rw [if_neg hleast, if_pos rfl]
      exact decide_eq_true ⟨hbounds.1, UInt8.lt_iff_toNat_lt.mpr (hhigh rfl)⟩
    · rw [if_neg hleast, if_neg hmost, hb]

theorem isSecondOfFour_of_bounds
    (hb : isContinuation b = true) (hlow : a.toNat = 240 → 144 ≤ b.toNat)
    (hhigh : a.toNat = 244 → b.toNat < 144) :
    isSecondOfFour a b = true := by
  have hbounds := hb
  simp only [isContinuation, decide_eq_true_eq] at hbounds
  rw [isSecondOfFour]
  by_cases hleast : a = 0xF0
  · subst hleast
    rw [if_pos rfl]
    exact decide_eq_true ⟨UInt8.le_iff_toNat_le.mpr (hlow rfl), hbounds.2⟩
  · by_cases hmost : a = 0xF4
    · subst hmost
      rw [if_neg hleast, if_pos rfl]
      exact decide_eq_true ⟨hbounds.1, UInt8.lt_iff_toNat_lt.mpr (hhigh rfl)⟩
    · rw [if_neg hleast, if_neg hmost, hb]

/-- The bytes of a character are one piece, whatever comes after them. -/
theorem pieces_utf8EncodeChar (c : Char) (rest : List UInt8) :
    pieces (String.utf8EncodeChar c ++ rest) = .char c :: pieces rest := by
  have hchar : Char.ofNat c.val.toNat = c := Char.ofNat_toNat c
  have hvalid : c.val.toNat < 0xD800 ∨ 0xDFFF < c.val.toNat ∧ c.val.toNat < 0x110000 := c.valid
  have hbyte : ∀ n, n < 256 → (UInt8.ofNat n).toNat = n := fun n => UInt8.toNat_ofNat_of_lt'
  rw [String.utf8EncodeChar]
  generalize c.val.toNat = v at hchar hvalid
  by_cases hone : v ≤ 0x7F
  · have hlead := hbyte v (by omega)
    simp only [hone, if_true]
    rw [List.singleton_append, pieces_one (by omega), hlead, hchar]
  · by_cases htwo : v ≤ 0x7FF
    · have hlead := hbyte (v / 64 % 32 + 192) (by omega)
      obtain ⟨hb, hblow⟩ := continuation v
      simp only [hone, htwo, if_true, if_false]
      show pieces (_ :: _ :: rest) = _
      rw [pieces_two (by omega) (by omega) hb, hlead, hblow, ← hchar]
      congr 3
      omega
    · by_cases hthree : v ≤ 0xFFFF
      · have hlead := hbyte (v / 4096 % 16 + 224) (by omega)
        have hsecond := hbyte (v / 64 % 64 + 128) (by omega)
        obtain ⟨hb, hblow⟩ := continuation (v / 64)
        obtain ⟨hc, hclow⟩ := continuation v
        simp only [hone, htwo, hthree, if_true, if_false]
        show pieces (_ :: _ :: _ :: rest) = _
        have hb' := isSecondOfThree_of_bounds hb (a := UInt8.ofNat (v / 4096 % 16 + 224))
          (by omega) (by omega)
        rw [pieces_three (by omega) (by omega) hb' hc, hlead, hblow, hclow, ← hchar]
        congr 3
        omega
      · have hlead := hbyte (v / 262144 % 8 + 240) (by omega)
        have hsecond := hbyte (v / 4096 % 64 + 128) (by omega)
        obtain ⟨hb, hblow⟩ := continuation (v / 4096)
        obtain ⟨hc, hclow⟩ := continuation (v / 64)
        obtain ⟨hd, hdlow⟩ := continuation v
        simp only [hone, htwo, hthree, if_false]
        show pieces (_ :: _ :: _ :: _ :: rest) = _
        have hb' := isSecondOfFour_of_bounds hb (a := UInt8.ofNat (v / 262144 % 8 + 240))
          (by omega) (by omega)
        rw [pieces_four (by omega) (by omega) hb' hc hd, hlead, hblow, hclow, hdlow, ← hchar]
        congr 3
        omega

/-! ## Texts -/

theorem pieces_flatMap (cs : List Char) :
    pieces (cs.flatMap String.utf8EncodeChar) = cs.map .char := by
  induction cs with
  | nil => rfl
  | cons c cs ih => rw [List.flatMap_cons, pieces_utf8EncodeChar, ih, List.map_cons]

theorem charsOf_map (cs : List Char) (index : Nat) :
    charsOf index (cs.map .char) = .ok cs := by
  induction cs generalizing index with
  | nil => rfl
  | cons c cs ih =>
      rw [List.map_cons, charsOf, ih]
      rfl

/-- The bytes of a text are read as that text. -/
theorem decode_bytes (s : String) :
    decode (bytes s) = .ok s := by
  rw [decode, bytes_eq_flatMap, pieces_flatMap, charsOf_map]
  exact congrArg Except.ok String.ofList_toList

end Utf8

end LibraryModels.Text
