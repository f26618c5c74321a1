import LibraryModels.Yaml.Print.Scalar
import Mathlib.Data.Option.Basic

/-!
# Characters that stand for themselves

A character that is written as it is can be read: it is allowed in a text, it is no tab, no
carriage return and no byte order mark, and if it ends a line, then it is kept as it is.
-/

namespace LibraryModels.Yaml

open Print (isDirect)

variable {c : Char}

@[simp] theorem isBlank_space : isBlank ' ' = true := rfl

@[simp] theorem isBreak_space : isBreak ' ' = false := rfl

@[simp] theorem isBreak_newline : isBreak '\n' = true := rfl

namespace Print

theorem isAllowed_of_isDirect
    (h : isDirect c = true) :
    isAllowed c = true := by
  simp only [isDirect, Bool.decide_or, Bool.decide_and, Bool.or_eq_true, decide_eq_true_eq,
    Bool.and_eq_true] at h
  simp only [isAllowed, decide_eq_true_eq]
  rcases h with (rfl | h) | h | h
  · exact .inr (.inl rfl)
  all_goals omega

theorem ne_of_isDirect
    (h : isDirect c = true) :
    c ≠ '\t' ∧ c ≠ '\r' ∧ c ≠ '\x85' ∧ c ≠ '\uFEFF' := by
  refine ⟨?_, ?_, ?_, ?_⟩ <;>
    · rintro rfl
      revert h
      decide

theorem eq_space_of_isDirect
    (h : isDirect c = true) (hblank : isBlank c = true) :
    c = ' ' := by
  simp only [isBlank, decide_eq_true_eq] at hblank
  exact hblank.resolve_right (ne_of_isDirect h).1

/-- A line end that stands for itself is kept in the text of a scalar. -/
theorem breakText_of_isDirect
    (h : isDirect c = true) (hbreak : isBreak c = true) :
    breakText c = c := by
  obtain ⟨-, hcr, hnel, -⟩ := ne_of_isDirect h
  simp only [isBreak, decide_eq_true_eq] at hbreak
  rcases hbreak with rfl | rfl | rfl | rfl | rfl
  · rfl
  · exact absurd rfl hcr
  · exact absurd rfl hnel
  · rfl
  · rfl

/-- A character that begins a token after the indentation of a line. -/
structure StartsToken (c : Char) : Prop where
  direct : isDirect c = true
  unbroken : isBreak c = false
  not_space : c ≠ ' '
  not_comment : c ≠ '#'

theorem StartsToken.isBlank_eq_false
    (h : StartsToken c) :
    isBlank c = false := by
  cases hblank : isBlank c with
  | false => rfl
  | true => exact absurd (eq_space_of_isDirect h.direct hblank) h.not_space

/-- What goes on at the first column of a line: nothing, or a token at column `limit` or before. -/
inductive StartsLine (limit : Nat) : List Char → Prop where
  | nothing : StartsLine limit []
  | token {column : Nat} {c : Char} {rest : List Char} :
      column ≤ limit → StartsToken c → StartsLine limit (spaces column ++ c :: rest)

theorem StartsLine.mono
    {limit limit' : Nat} {tail : List Char}
    (h : StartsLine limit tail) (hle : limit ≤ limit') :
    StartsLine limit' tail := by
  cases h with
  | nothing => exact .nothing
  | token hcolumn hc => exact .token (Nat.le_trans hcolumn hle) hc

@[simp] theorem spaces_zero : spaces 0 = [] := rfl

theorem spaces_succ (n : Nat) : spaces (n + 1) = ' ' :: spaces n := rfl

theorem StartsLine.of_space
    {limit : Nat} {rest : List Char}
    (h : StartsLine limit (' ' :: rest)) :
    StartsLine limit rest := by
  generalize htext : ' ' :: rest = text at h
  cases h with
  | nothing => cases htext
  | @token column c more hcolumn hc =>
      cases column with
      | zero =>
          obtain ⟨rfl, rfl⟩ := List.cons.inj htext
          exact absurd rfl hc.not_space
      | succ column =>
          obtain rfl := (List.cons.inj htext).2
          exact .token (Nat.le_of_succ_le hcolumn) hc

/-- Some of the indentation may be passed already. -/
theorem StartsLine.of_spaces
    {limit n : Nat} {rest : List Char}
    (h : StartsLine limit (spaces n ++ rest)) :
    StartsLine limit rest := by
  induction n with
  | zero => exact h
  | succ n ih => exact ih h.of_space

theorem StartsLine.head?_ne
    {limit : Nat} {tail : List Char}
    (h : StartsLine limit tail) :
    tail.head? ≠ some '\uFEFF' := by
  cases h with
  | nothing => simp
  | @token m c more hm hc =>
      cases m with
      | zero => simpa using (ne_of_isDirect hc.direct).2.2.2
      | succ m => simp [spaces_succ]

end Print

end LibraryModels.Yaml
