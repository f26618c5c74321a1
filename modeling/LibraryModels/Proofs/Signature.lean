import LibraryModels.Signature
import Mathlib.Logic.Function.Defs

/-!
# Canonical texts of signatures

A text is read as a signature exactly if it is the canonical text of that signature, or lacks only
the dot of an empty package.  The parts are found again because nothing but the parameter list may
hold `#` or a parenthesis, and because the type holds no dot.  Signatures are in the order of their
parts, each part by its bytes.
-/

namespace LibraryModels

open Text (bytes splitFirst splitLast)

namespace Signature

variable {g : Signature} {s : String} {c : Char}
variable {package typeName name parameters : String} {cs before after : List Char}

/-! ## Parts -/

theorem Plain.not_mem
    (h : Plain s) (hc : c ∈ reserved) :
    c ∉ s.toList := by
  intro hmem
  exact h c hmem hc

/-- Reading the parts of a signature gives the signature, as they were checked when it was made. -/
@[simp] theorem ofParts?_parts (g : Signature) :
    ofParts? g.package g.typeName g.name g.parameters = some g := by
  rw [ofParts?, dif_pos g.wellFormed]

theorem ofParts?_eq_some_iff :
    ofParts? package typeName name parameters = some g ↔
      package = g.package ∧ typeName = g.typeName ∧ name = g.name ∧
        parameters = g.parameters := by
  constructor
  · intro h
    unfold ofParts? at h
    split at h
    · cases h
      exact ⟨rfl, rfl, rfl, rfl⟩
    · cases h
  · rintro ⟨rfl, rfl, rfl, rfl⟩
    exact ofParts?_parts g

/-! ## Taking a text apart -/

/-- Before a type without a dot stands a package with its dot, or no package and no dot. -/
theorem splitQualified_eq_iff
    (hdotless : '.' ∉ after) :
    splitQualified cs = (before, after) ↔
      cs = before ++ '.' :: after ∨ (before = [] ∧ cs = after) := by
  unfold splitQualified
  cases hsplit : splitLast '.' cs with
  | none =>
      have hfree : '.' ∉ cs := Text.splitLast_eq_none_iff.1 hsplit
      constructor
      · intro h
        cases h
        exact .inr ⟨rfl, rfl⟩
      · rintro (rfl | ⟨rfl, rfl⟩)
        · simp at hfree
        · rfl
  | some parts =>
      obtain ⟨package, typeName⟩ := parts
      have hparts := Text.splitLast_eq_some_iff.1 hsplit
      constructor
      · intro h
        cases h
        exact .inl hparts.1
      · rintro (h | ⟨-, rfl⟩)
        · rw [Text.splitLast_eq_some_iff.2 ⟨h, hdotless⟩] at hsplit
          cases hsplit
          rfl
        · rw [hparts.1] at hdotless
          simp at hdotless

/-- What stands before the `#` of a signature holds no other. -/
theorem not_mem_qualified
    (h : splitQualified cs = (g.package.toList, g.typeName.toList)) :
    '#' ∉ cs := by
  have hpackage := g.wellFormed.package_plain.not_mem (c := '#') (by decide)
  have htype := g.wellFormed.typeName_plain.not_mem (c := '#') (by decide)
  rcases (splitQualified_eq_iff g.wellFormed.typeName_dotless).1 h with rfl | ⟨-, rfl⟩
  · simp [hpackage, htype]
  · exact htype

theorem exists_parameters (g : Signature) :
    ∃ rest, g.parameters.toList = '(' :: rest :=
  List.head?_eq_some_iff.1 g.wellFormed.parameters_opened

/-- A text is read part by part: package and type, then name and parameter list. -/
theorem ofText?_eq_some_iff_exists :
    ofText? s = some g ↔
      ∃ qualified, splitQualified qualified = (g.package.toList, g.typeName.toList) ∧
        s.toList = qualified ++ '#' :: (g.name.toList ++ g.parameters.toList) := by
  unfold ofText?
  simp only [Option.bind_eq_bind, Option.bind_eq_some_iff, Prod.exists,
    Text.splitFirst_eq_some_iff, ofParts?_eq_some_iff]
  constructor
  · rintro ⟨qualified, member, ⟨hs, -⟩, name, rest, ⟨hmember, -⟩, hpackage, htype, hname, hrest⟩
    refine ⟨qualified, ?_, ?_⟩
    · rw [← hpackage, ← htype, String.toList_ofList, String.toList_ofList]
    · rw [hs, hmember, ← hname, ← hrest, String.toList_ofList, String.toList_ofList]
  · rintro ⟨qualified, hqualified, hs⟩
    obtain ⟨rest, hrest⟩ := g.exists_parameters
    have hname := g.wellFormed.name_plain.not_mem (c := '(') (by decide)
    refine ⟨qualified, _, ⟨hs, not_mem_qualified hqualified⟩, g.name.toList, rest,
      ⟨by rw [hrest], hname⟩, ?_⟩
    rw [hqualified, ← hrest]
    simp

/-! ## Canonical texts -/

theorem toList_text (g : Signature) :
    g.text.toList =
      (g.package.toList ++ '.' :: g.typeName.toList) ++
        '#' :: (g.name.toList ++ g.parameters.toList) := by
  simp [text]

theorem eq_text_iff :
    s = g.text ↔
      s.toList = (g.package.toList ++ '.' :: g.typeName.toList) ++
        '#' :: (g.name.toList ++ g.parameters.toList) := by
  rw [← toList_text, String.toList_inj]

/-- Only the dot is missing, and the package before it is empty. -/
theorem dot_append_eq_text_iff
    (hpackage : g.package = "") :
    "." ++ s = g.text ↔
      s.toList = g.typeName.toList ++ '#' :: (g.name.toList ++ g.parameters.toList) := by
  rw [eq_text_iff, hpackage]
  simp

theorem ofText?_eq_some_iff :
    ofText? s = some g ↔ s = g.text ∨ (g.package = "" ∧ "." ++ s = g.text) := by
  rw [ofText?_eq_some_iff_exists]
  simp only [splitQualified_eq_iff g.wellFormed.typeName_dotless]
  constructor
  · rintro ⟨qualified, rfl | ⟨hpackage, rfl⟩, hs⟩
    · exact .inl (eq_text_iff.2 hs)
    · have hempty : g.package = "" := String.toList_eq_nil_iff.1 hpackage
      exact .inr ⟨hempty, (dot_append_eq_text_iff hempty).2 hs⟩
  · rintro (hs | ⟨hempty, hs⟩)
    · exact ⟨_, .inl rfl, eq_text_iff.1 hs⟩
    · refine ⟨_, .inr ⟨?_, rfl⟩, (dot_append_eq_text_iff hempty).1 hs⟩
      rw [hempty]
      rfl

@[simp] theorem ofText?_text (g : Signature) :
    ofText? g.text = some g :=
  ofText?_eq_some_iff.2 (.inl rfl)

theorem text_injective :
    Function.Injective text := by
  intro g h htext
  have hread : some g = some h := by rw [← ofText?_text g, htext, ofText?_text h]
  exact Option.some.inj hread

/--
The canonical texts, and those that lack only the dot of an empty package, are what is read as
signatures; a signature is determined by its canonical text, and what is read passes the checks of
its parts.
-/
theorem reads_canonical_texts :
    (∀ s g, ofText? s = some g ↔ s = g.text ∨ (g.package = "" ∧ "." ++ s = g.text)) ∧
      (∀ g, ofText? (text g) = some g) ∧
      Function.Injective text ∧
      ∀ s, ((ofText? s).bind fun g => ofParts? g.package g.typeName g.name g.parameters) =
        ofText? s := by
  refine ⟨fun _ _ => ofText?_eq_some_iff, ofText?_text, text_injective, ?_⟩
  intro s
  simp only [ofParts?_parts, Option.bind_fun_some]

/-! ## The order of signatures -/

/-- Before another signature, part by part, each part by its bytes. -/
def Precedes (g k : Signature) : Prop :=
  bytes g.package < bytes k.package ∨ g.package = k.package ∧
    (bytes g.typeName < bytes k.typeName ∨ g.typeName = k.typeName ∧
      (bytes g.name < bytes k.name ∨ g.name = k.name ∧ bytes g.parameters < bytes k.parameters))

/-- Lists are compared as their first items that differ. -/
theorem compare_list_eq_lt_iff
    {α : Type} [Ord α] [Std.LawfulEqOrd α] [LT α]
    (h : ∀ a b : α, compare a b = .lt ↔ a < b) (xs ys : List α) :
    compare xs ys = .lt ↔ xs < ys := by
  induction xs generalizing ys with
  | nil => cases ys <;> simp
  | cons x xs ih =>
      cases ys with
      | nil => simp
      | cons y ys =>
          rw [List.compare_eq_compareLex, List.compareLex_cons_cons, Ordering.then_eq_lt, h,
            List.cons_lt_cons_iff, ← ih, List.compare_eq_compareLex,
            Std.LawfulEqCmp.compare_eq_iff_eq]

theorem lt_iff_precedes
    {k : Signature} :
    g < k ↔ g.Precedes k := by
  have hbytes : ∀ xs ys : List UInt8, compare xs ys = .lt ↔ xs < ys :=
    compare_list_eq_lt_iff fun _ _ => compareOfLessAndEq_eq_lt
  rw [lt_def, compare_def, compare_list_eq_lt_iff hbytes]
  simp only [key, Precedes, List.cons_lt_cons_iff, Text.bytes_inj, List.not_lt_nil, and_false,
    or_false]

end Signature

end LibraryModels
