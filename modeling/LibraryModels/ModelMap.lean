import LibraryModels.Row

/-!
# Maps from signatures to models

A map keeps its entries in strictly ascending order of signatures, so a map is determined by what
it gives for each signature. Writing a signature again replaces its model.
-/

namespace LibraryModels

namespace Entries

/-- Ascending without repetition. -/
def Ascending (entries : List Entry) : Prop :=
  entries.Pairwise fun a b => a.1 < b.1

/-- The model of a signature. -/
def find? (g : Signature) : List Entry → Option Method
  | [] => none
  | (k, m) :: rest => if g = k then some m else find? g rest

/-- Puts an entry where it belongs, in place of one with the same signature. -/
def insert (g : Signature) (m : Method) : List Entry → List Entry
  | [] => [(g, m)]
  | (k, n) :: rest =>
    match compare g k with
    | .lt => (g, m) :: (k, n) :: rest
    | .eq => (g, m) :: rest
    | .gt => (k, n) :: insert g m rest

/-- Leaves the entry of a signature out. -/
def erase (g : Signature) (entries : List Entry) : List Entry :=
  entries.filter fun e => e.1 ≠ g

theorem fst_mem_of_mem_insert
    {g : Signature} {m : Method} {entries : List Entry} {e : Entry}
    (h : e ∈ insert g m entries) :
    e = (g, m) ∨ e ∈ entries := by
  induction entries with
  | nil => simpa [insert] using h
  | cons a rest ih =>
    obtain ⟨k, n⟩ := a
    simp only [insert] at h
    split at h
    · simpa using h
    · rcases List.mem_cons.1 h with h | h
      · exact .inl h
      · exact .inr (List.mem_cons_of_mem _ h)
    · rcases List.mem_cons.1 h with h | h
      · exact .inr (by simp [h])
      · rcases ih h with h | h
        · exact .inl h
        · exact .inr (List.mem_cons_of_mem _ h)

theorem ascending_insert
    {g : Signature} {m : Method} {entries : List Entry}
    (h : Ascending entries) :
    Ascending (insert g m entries) := by
  unfold Ascending at h ⊢
  induction entries with
  | nil => simp [insert]
  | cons a rest ih =>
    obtain ⟨k, n⟩ := a
    rw [List.pairwise_cons] at h
    simp only [insert]
    split
    · next hc =>
      refine List.pairwise_cons.2 ⟨fun b hb => ?_, List.pairwise_cons.2 h⟩
      rcases List.mem_cons.1 hb with rfl | hb
      · exact hc
      · exact Std.TransCmp.lt_trans hc (h.1 b hb)
    · next hc =>
      have : g = k := Std.LawfulEqCmp.eq_of_compare hc
      subst this
      exact List.pairwise_cons.2 h
    · next hc =>
      refine List.pairwise_cons.2 ⟨fun b hb => ?_, ih h.2⟩
      rcases fst_mem_of_mem_insert hb with rfl | hb
      · exact Std.OrientedCmp.gt_iff_lt.1 hc
      · exact h.1 b hb

theorem ascending_erase
    {g : Signature} {entries : List Entry}
    (h : Ascending entries) :
    Ascending (erase g entries) :=
  List.Pairwise.filter _ h

/-- Not after another signature. -/
def ordered (a b : Entry) : Bool :=
  (compare a.1 b.1).isLE

/-- Leaves out what an entry with the same signature follows. -/
def keepLast : List Entry → List Entry
  | [] => []
  | e :: rest => if rest.head?.map Prod.fst = some e.1 then keepLast rest else e :: keepLast rest

theorem keepLast_subset (entries : List Entry) :
    keepLast entries ⊆ entries := by
  induction entries with
  | nil => simp [keepLast]
  | cons e rest ih =>
    rw [keepLast]
    split
    · exact List.subset_cons_of_subset e ih
    · exact List.cons_subset_cons e ih

/-- In order, what does not come first among the rest comes nowhere in it. -/
theorem lt_of_mem_of_ordered
    {e b : Entry} {rest : List Entry}
    (h : (e :: rest).Pairwise fun a b => ordered a b)
    (hhead : rest.head?.map Prod.fst ≠ some e.1) (hb : b ∈ rest) :
    e.1 < b.1 := by
  cases rest with
  | nil => cases hb
  | cons f rest =>
    rw [List.pairwise_cons] at h
    have hlt : e.1 < f.1 := by
      rcases Ordering.isLE_iff_eq_lt_or_eq_eq.1 (h.1 f List.mem_cons_self) with hc | hc
      · exact hc
      · have heq : e.1 = f.1 := Std.LawfulEqCmp.eq_of_compare hc
        exact absurd (congrArg some heq.symm) hhead
    rcases List.mem_cons.1 hb with rfl | hb
    · exact hlt
    · exact Std.TransCmp.lt_of_lt_of_isLE hlt ((List.pairwise_cons.1 h.2).1 b hb)

theorem ascending_keepLast
    {entries : List Entry}
    (h : entries.Pairwise fun a b => ordered a b) :
    Ascending (keepLast entries) := by
  unfold Ascending
  induction entries with
  | nil => exact List.Pairwise.nil
  | cons e rest ih =>
    rw [keepLast]
    split
    · exact ih h.tail
    · next hhead =>
      refine List.pairwise_cons.2 ⟨fun b hb => ?_, ih h.tail⟩
      exact lt_of_mem_of_ordered h hhead (keepLast_subset rest hb)

theorem ordered_trans
    (a b c : Entry) (hab : ordered a b) (hbc : ordered b c) :
    ordered a c :=
  Std.TransCmp.isLE_trans hab hbc

theorem ordered_total (a b : Entry) : (ordered a b || ordered b a) = true := by
  have hswap : compare b.1 a.1 = (compare a.1 b.1).swap := Std.OrientedCmp.eq_swap
  rw [ordered, ordered, hswap]
  cases compare a.1 b.1 <;> rfl

theorem pairwise_sort (entries : List Entry) :
    (entries.mergeSort ordered).Pairwise fun a b => ordered a b :=
  List.pairwise_mergeSort ordered_trans ordered_total entries

end Entries

/-- A map from signatures to models. -/
structure ModelMap where
  entries : List Entry
  ascending : Entries.Ascending entries
deriving DecidableEq

namespace ModelMap

/-- The map without entries. -/
def empty : ModelMap where
  entries := []
  ascending := List.Pairwise.nil

instance : Inhabited ModelMap := ⟨empty⟩

/-- The model of a signature. -/
def get? (m : ModelMap) (g : Signature) : Option Method :=
  Entries.find? g m.entries

/-- The number of entries. -/
def size (m : ModelMap) : Nat :=
  m.entries.length

/-- No entries at all. -/
def isEmpty (m : ModelMap) : Bool :=
  m.entries.isEmpty

/-- The map with `g` set to `method`. -/
def insert (m : ModelMap) (g : Signature) (method : Method) : ModelMap where
  entries := Entries.insert g method m.entries
  ascending := Entries.ascending_insert m.ascending

/-- The map without `g`. -/
def erase (m : ModelMap) (g : Signature) : ModelMap where
  entries := Entries.erase g m.entries
  ascending := Entries.ascending_erase m.ascending

/-- Sets `g` and also gives the model that it had before. -/
def replace (m : ModelMap) (g : Signature) (method : Method) : Option Method × ModelMap :=
  (m.get? g, m.insert g method)

/-- Removes `g` and also gives the model that it had. -/
def remove (m : ModelMap) (g : Signature) : Option Method × ModelMap :=
  (m.get? g, m.erase g)

/-- Sets entries one after the other, so that a later one wins. -/
def extend (m : ModelMap) (entries : List Entry) : ModelMap :=
  entries.foldl (fun m e => m.insert e.1 e.2) m

/-- The map of a list of entries; a later one wins. -/
def ofList (entries : List Entry) : ModelMap :=
  empty.extend entries

/--
The map of a list of entries, made at once: the list is sorted, with entries of one signature left
in order, and of these the last one is kept.
-/
def collect (entries : List Entry) : ModelMap where
  entries := Entries.keepLast (entries.mergeSort Entries.ordered)
  ascending := Entries.ascending_keepLast (Entries.pairwise_sort entries)

/-- The entries in signature order. -/
def toList (m : ModelMap) : List Entry :=
  m.entries

/-- The entries of one kind, in signature order. -/
def ofKind (m : ModelMap) (kind : Kind) : List Entry :=
  m.entries.filter fun e => e.2.kind? == some kind

end ModelMap

end LibraryModels
