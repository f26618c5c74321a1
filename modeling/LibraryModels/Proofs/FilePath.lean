import LibraryModels.FilePath
import Mathlib.Data.List.Basic

/-!
# Entries of a directory

The path of an entry ends with the name of the entry, so different names have different paths.  A
name without a separator that leads somewhere is one component more than the directory has.
-/

namespace LibraryModels

/-- The pieces around a separator are those before it and those after it. -/
theorem Text.pieces_append_cons
    (sep : Char) (before after : List Char) :
    pieces sep (before ++ sep :: after) = pieces sep before ++ pieces sep after := by
  induction before with
  | nil => simp [pieces]
  | cons c before ih =>
      rw [List.cons_append, pieces, pieces, ih]
      split
      · rfl
      · cases hpieces : pieces sep before with
        | nil => exact absurd hpieces (pieces_ne_nil sep before)
        | cons first rest => rfl

theorem Text.pieces_of_not_mem
    {sep : Char} {cs : List Char}
    (h : sep ∉ cs) :
    pieces sep cs = [cs] :=
  pieces_joinWith (List.cons_ne_nil cs []) (List.forall_mem_singleton.2 h)

namespace FilePath

variable {p : FilePath} {a b : String}

/-- What comes before the name of an entry depends on the directory only. -/
def base (p : FilePath) : List Char :=
  p.text.toList ++ if p.text.toList.isEmpty || p.text.toList.getLast? == some '/' then [] else ['/']

theorem entry_eq
    (ha : isAbsolute ⟨a⟩ = false) :
    p.entry a = ⟨String.ofList (p.base ++ a.toList)⟩ := by
  rw [entry, join, if_neg (by simp [ha])]
  rfl

theorem entry_inj
    (ha : isAbsolute ⟨a⟩ = false) (hb : isAbsolute ⟨b⟩ = false) :
    p.entry a = p.entry b ↔ a = b := by
  constructor
  · intro h
    rw [entry_eq ha, entry_eq hb] at h
    have htext : p.base ++ a.toList = p.base ++ b.toList :=
      String.ofList_injective (FilePath.mk.inj h)
    exact String.toList_injective (List.append_cancel_left htext)
  · intro h
    rw [h]

/-! ## Components -/

/--
The components of a path: the root, or the first part if there is one, and the later parts that
lead somewhere.
-/
def components (p : FilePath) : List String :=
  (if p.isAbsolute then ["/"] else (p.parts.take 1).filter (· ≠ "")) ++
    (p.parts.drop 1).filter fun part => !isIdle part

variable {name : String}

theorem isAbsolute_eq_false
    (h : '/' ∉ name.toList) :
    isAbsolute ⟨name⟩ = false := by
  cases hname : name.toList with
  | nil => simp [isAbsolute, hname]
  | cons c rest =>
      have hc : c ≠ '/' := by
        rintro rfl
        exact h (hname ▸ List.mem_cons_self)
      simp [isAbsolute, hname, hc]

/-- The parts of an entry are those of the directory, but for an empty last one, and the name. -/
theorem exists_parts_entry
    (hpart : '/' ∉ name.toList) (hp : p.text.toList ≠ []) :
    ∃ before empty, before ≠ [] ∧ (∀ part ∈ empty, isIdle part = true) ∧
      p.parts = before ++ empty ∧ (p.entry name).parts = before ++ [name] ∧
      (p.entry name).isAbsolute = p.isAbsolute := by
  have hname : (Text.pieces '/' name.toList).map String.ofList = [name] := by
    rw [Text.pieces_of_not_mem hpart, List.map_singleton, String.ofList_toList]
  have hjoined : ∀ cs : List Char, p.base = cs ++ ['/'] →
      (p.entry name).parts = (Text.pieces '/' cs).map String.ofList ++ [name] := by
    intro cs hbase
    rw [entry_eq (isAbsolute_eq_false hpart), parts, String.toList_ofList, hbase,
      List.append_assoc, List.singleton_append, Text.pieces_append_cons, List.map_append, hname]
  have hsome : ∀ cs : List Char, (Text.pieces '/' cs).map String.ofList ≠ [] := by
    intro cs
    rw [ne_eq, List.map_eq_nil_iff]
    exact Text.pieces_ne_nil '/' cs
  have habsolute : (p.entry name).isAbsolute = p.isAbsolute := by
    rw [entry_eq (isAbsolute_eq_false hpart), isAbsolute, isAbsolute, String.toList_ofList, base,
      List.append_assoc, List.head?_append_of_ne_nil _ hp]
  obtain ⟨cs, last, htext⟩ := (List.eq_nil_or_concat p.text.toList).resolve_left hp
  rw [List.concat_eq_append] at htext
  by_cases hlast : last = '/'
  · -- a directory that ends with a separator has an empty last part
    subst hlast
    refine ⟨_, [""], hsome cs, by simp [isIdle], ?_, hjoined cs ?_, habsolute⟩
    · rw [parts, htext, Text.pieces_append_cons, List.map_append]
      rfl
    · simp [base, htext]
  · refine ⟨_, [], hsome p.text.toList, by simp, ?_, hjoined p.text.toList ?_, habsolute⟩
    · rw [parts, List.append_nil]
    · simp [base, htext, hlast]

/-- A name that is one part makes one component more. -/
theorem components_entry
    (hpart : '/' ∉ name.toList) (hidle : isIdle name = false) :
    (p.entry name).components = p.components ++ [name] := by
  by_cases hp : p.text.toList = []
  · have hne : name ≠ "" := by
      rintro rfl
      cases hidle
    have hparts : (p.entry name).parts = [name] := by
      rw [entry_eq (isAbsolute_eq_false hpart), parts, String.toList_ofList, base, hp]
      show (Text.pieces '/' name.toList).map String.ofList = [name]
      rw [Text.pieces_of_not_mem hpart, List.map_singleton, String.ofList_toList]
    have hrelative : (p.entry name).isAbsolute = false := by
      rw [entry_eq (isAbsolute_eq_false hpart), isAbsolute, String.toList_ofList, base, hp]
      exact isAbsolute_eq_false hpart
    rw [components, components, hrelative, hparts, isAbsolute, parts, hp]
    simp [hne, Text.pieces]
  · obtain ⟨before, empty, hbefore, hempty, hparts, hentry, habsolute⟩ :=
      exists_parts_entry hpart hp
    obtain ⟨first, rest, rfl⟩ := List.exists_cons_of_ne_nil hbefore
    have hnone : empty.filter (fun part => !isIdle part) = [] := by
      rw [List.filter_eq_nil_iff]
      intro part hmem
      rw [hempty part hmem]
      decide
    rw [components, components, habsolute, hparts, hentry]
    simp [hidle, hnone]

theorem ofParts_parts (p : FilePath) :
    ofParts p.parts = p := by
  have htexts : p.parts.map String.toList = Text.pieces '/' p.text.toList := by
    rw [parts, List.map_map]
    simp
  rw [ofParts, htexts, Text.joinWith_pieces, String.ofList_toList]

/-- The parent of an entry is the directory, if the directory is an entry itself. -/
theorem parent?_entry_entry
    {last : String}
    (hp : p.text.toList ≠ []) (hlast : '/' ∉ last.toList) (hlastIdle : isIdle last = false)
    (hpart : '/' ∉ name.toList) (hidle : isIdle name = false) :
    ((p.entry last).entry name).parent? = some (p.entry last) := by
  obtain ⟨above, -, habove, -, -, hdirectory, -⟩ := exists_parts_entry hlast hp
  have hne : (p.entry last).text.toList ≠ [] := by
    rw [entry_eq (isAbsolute_eq_false hlast), String.toList_ofList, base]
    simp [hp]
  obtain ⟨before, empty, -, hempty, hparts, hentry, -⟩ := exists_parts_entry hpart hne
  rw [hdirectory] at hparts
  -- the last part of the directory leads somewhere, so it is no empty one
  have hnone : empty = [] := by
    rcases List.eq_nil_or_concat empty with hnil | ⟨others, part, hconcat⟩
    · exact hnil
    · rw [hconcat, List.concat_eq_append, ← List.append_assoc] at hparts
      have hsame : last = part := List.head_eq_of_cons_eq (List.append_inj' hparts rfl).2
      rw [hsame, hempty part (by simp [hconcat])] at hlastIdle
      cases hlastIdle
  rw [hnone, List.append_nil] at hparts
  rw [← hparts] at hentry
  obtain ⟨first, rest, rfl⟩ := List.exists_cons_of_ne_nil habove
  have htail : ((p.entry last).entry name).tailParts = name :: last :: rest.reverse := by
    rw [tailParts, hentry]
    simp [hidle]
  have hdir : ofParts (first :: rest ++ [last]) = p.entry last := by
    rw [← hdirectory, ofParts_parts]
  rw [parent?, htail, hentry, ← hdir]
  simp [hlastIdle]

end FilePath

end LibraryModels
