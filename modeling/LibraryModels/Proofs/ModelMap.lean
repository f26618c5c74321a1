import LibraryModels.ModelMap
import Mathlib.Data.List.Nodup

/-!
# What a map gives for each signature

A map is known by what it gives for each signature.  Lookup is computed through every way of
building a map, and two maps that give the same for all signatures are equal, because their
entries stand in strictly ascending order.
-/

namespace LibraryModels

namespace Entries

variable {g k : Signature} {m n : Method} {entries : List Entry}

@[simp] theorem find?_nil : find? g [] = none := rfl

theorem find?_cons :
    find? g ((k, m) :: entries) = if g = k then some m else find? g entries := rfl

theorem find?_append (xs ys : List Entry) :
    find? g (xs ++ ys) = (find? g xs).or (find? g ys) := by
  induction xs with
  | nil => rfl
  | cons e xs ih =>
      obtain ⟨k, m⟩ := e
      rw [List.cons_append, find?_cons, find?_cons, ih]
      split <;> rfl

theorem mem_of_find?_eq_some
    (h : find? g entries = some m) :
    (g, m) ∈ entries := by
  induction entries with
  | nil => cases h
  | cons e rest ih =>
      obtain ⟨k, n⟩ := e
      rw [find?_cons] at h
      split at h
      · next hk =>
          cases h
          rw [hk]
          exact List.mem_cons_self
      · exact List.mem_cons_of_mem _ (ih h)

theorem find?_eq_none_iff :
    find? g entries = none ↔ ∀ e ∈ entries, e.1 ≠ g := by
  induction entries with
  | nil => simp
  | cons e rest ih =>
      obtain ⟨k, n⟩ := e
      rw [find?_cons, List.forall_mem_cons]
      by_cases hk : g = k
      · simp [hk]
      · rw [if_neg hk, ih]
        exact ⟨fun h => ⟨fun heq => hk heq.symm, h⟩, fun h => h.2⟩

/-- An entry that is put in is found, and all other signatures keep what they had. -/
theorem find?_insert :
    find? g (insert k m entries) = if g = k then some m else find? g entries := by
  induction entries with
  | nil => rfl
  | cons e rest ih =>
      obtain ⟨j, n⟩ := e
      rw [insert]
      split
      · exact find?_cons
      · next hc =>
          have hkj : k = j := Std.LawfulEqCmp.eq_of_compare hc
          subst hkj
          rw [find?_cons, find?_cons]
          split <;> rfl
      · next hc =>
          have hkj : k ≠ j := by
            rintro rfl
            have hself : compare k k = .eq := Std.ReflCmp.compare_self
            rw [hself] at hc
            cases hc
          rw [find?_cons, find?_cons, ih]
          by_cases hg : g = j
          · rw [if_pos hg, if_pos hg, if_neg fun h => hkj (h.symm.trans hg)]
          · rw [if_neg hg, if_neg hg]

/-- A signature that is left out is not found, and all others keep what they had. -/
theorem find?_erase :
    find? g (erase k entries) = if g = k then none else find? g entries := by
  induction entries with
  | nil => simp [erase]
  | cons e rest ih =>
      obtain ⟨j, n⟩ := e
      by_cases hj : j = k
      · have herase : erase k ((j, n) :: rest) = erase k rest :=
          List.filter_cons_of_neg (by simpa using hj)
        rw [herase, ih, find?_cons, hj]
        split <;> rfl
      · have herase : erase k ((j, n) :: rest) = (j, n) :: erase k rest :=
          List.filter_cons_of_pos (by simpa using hj)
        rw [herase, find?_cons, find?_cons, ih]
        by_cases hg : g = j
        · rw [if_pos hg, if_pos hg, if_neg fun h => hj (hg.symm.trans h)]
        · rw [if_neg hg, if_neg hg]

/-- Lookup sees the entries of its signature only. -/
theorem find?_filter :
    find? g (entries.filter fun e => e.1 = g) = find? g entries := by
  induction entries with
  | nil => rfl
  | cons e rest ih =>
      obtain ⟨k, n⟩ := e
      by_cases hk : k = g
      · rw [List.filter_cons_of_pos (by simpa using hk), find?_cons, find?_cons, ih]
      · rw [List.filter_cons_of_neg (by simpa using hk), ih, find?_cons, if_neg (Ne.symm hk)]

/-- Sorting leaves the entries of one signature in order. -/
theorem filter_mergeSort (entries : List Entry) :
    ((entries.mergeSort ordered).filter fun e => e.1 = g) = entries.filter fun e => e.1 = g := by
  have hequal : (entries.filter fun e => e.1 = g).Pairwise fun a b => ordered a b := by
    refine List.pairwise_of_forall_mem_list fun a ha b hb => ?_
    have ha : a.1 = g := by simpa using (List.mem_filter.1 ha).2
    have hb : b.1 = g := by simpa using (List.mem_filter.1 hb).2
    have hself : compare g g = .eq := Std.ReflCmp.compare_self
    rw [ordered, ha, hb, hself]
    rfl
  have hsublist := List.sublist_mergeSort ordered_trans ordered_total hequal List.filter_sublist
  have hperm := (List.mergeSort_perm entries ordered).filter fun e => e.1 = g
  have hfilter := hsublist.filter fun e => e.1 = g
  simp only [List.filter_filter, Bool.and_self] at hfilter
  exact (hfilter.eq_of_length hperm.length_eq.symm).symm

theorem ne_of_lt
    (h : g < k) :
    g ≠ k := by
  rintro rfl
  have hself : compare g g = .eq := Std.ReflCmp.compare_self
  rw [Signature.lt_def, hself] at h
  cases h

/-- Ascending entries are of different signatures. -/
theorem Ascending.nodup_map_fst
    (h : Ascending entries) :
    (entries.map Prod.fst).Nodup :=
  List.Pairwise.map _ (fun _ _ hlt => ne_of_lt hlt) h

/-- Ascending entries have one method for each signature. -/
theorem Ascending.find?_eq_some_iff
    (h : Ascending entries) :
    find? g entries = some m ↔ (g, m) ∈ entries := by
  refine ⟨mem_of_find?_eq_some, fun hm => ?_⟩
  induction entries with
  | nil => cases hm
  | cons e rest ih =>
      obtain ⟨k, n⟩ := e
      obtain ⟨hfirst, hrest⟩ := List.pairwise_cons.1 h
      rw [find?_cons]
      rcases List.mem_cons.1 hm with heq | hm
      · cases heq
        exact if_pos rfl
      · rw [if_neg (ne_of_lt (hfirst _ hm)).symm]
        exact ih hrest hm

theorem Ascending.eq_of_find?_eq
    {xs ys : List Entry}
    (hx : Ascending xs) (hy : Ascending ys)
    (h : ∀ g, find? g xs = find? g ys) :
    xs = ys := by
  have hmem : ∀ e, e ∈ xs ↔ e ∈ ys := by
    rintro ⟨g, m⟩
    rw [← hx.find?_eq_some_iff, ← hy.find?_eq_some_iff, h g]
  have hnodup : ∀ {zs : List Entry}, Ascending zs → zs.Nodup := fun hz =>
    List.Nodup.of_map _ hz.nodup_map_fst
  have hperm : xs.Perm ys :=
    (List.perm_ext_iff_of_nodup (hnodup hx) (hnodup hy)).2 hmem
  refine hperm.eq_of_pairwise ?_ hx hy
  intro a b _ _ hab hba
  have : a.1 < a.1 := Std.TransCmp.lt_trans hab hba
  exact absurd rfl (ne_of_lt this)

end Entries

namespace ModelMap

variable {g k : Signature} {m n : Method}

@[simp] theorem get?_empty : empty.get? g = none := rfl

theorem get?_eq_some_iff
    {models : ModelMap} :
    models.get? g = some m ↔ (g, m) ∈ models.entries :=
  models.ascending.find?_eq_some_iff

theorem get?_insert (models : ModelMap) :
    (models.insert k m).get? g = if g = k then some m else models.get? g :=
  Entries.find?_insert

theorem get?_erase (models : ModelMap) :
    (models.erase k).get? g = if g = k then none else models.get? g :=
  Entries.find?_erase

/-- Maps that give the same for every signature are equal. -/
theorem ext_get?
    {a b : ModelMap}
    (h : ∀ g, a.get? g = b.get? g) :
    a = b := by
  have hentries : a.entries = b.entries := a.ascending.eq_of_find?_eq b.ascending h
  cases a
  cases b
  cases hentries
  rfl

/-- What entries set one after the other give for a signature: the method of the last of them. -/
def lastWrite (g : Signature) (entries : List Entry) : Option Method :=
  Entries.find? g entries.reverse

theorem lastWrite_append (xs ys : List Entry) :
    lastWrite g (xs ++ ys) = (lastWrite g ys).or (lastWrite g xs) := by
  rw [lastWrite, List.reverse_append, Entries.find?_append]
  rfl

theorem lastWrite_singleton :
    lastWrite g [(k, m)] = if g = k then some m else none := rfl

theorem lastWrite_cons (entries : List Entry) :
    lastWrite g ((k, m) :: entries) =
      (lastWrite g entries).or (if g = k then some m else none) :=
  lastWrite_append [(k, m)] entries

theorem lastWrite_eq_none_iff
    {entries : List Entry} :
    lastWrite g entries = none ↔ ∀ e ∈ entries, e.1 ≠ g := by
  rw [lastWrite, Entries.find?_eq_none_iff]
  simp only [List.mem_reverse]

theorem lastWrite_append_cons
    {before after : List Entry}
    (hafter : ∀ e ∈ after, e.1 ≠ g) :
    lastWrite g (before ++ (g, m) :: after) = some m := by
  have hsplit : before ++ (g, m) :: after = before ++ [(g, m)] ++ after := by simp
  rw [hsplit, lastWrite_append, lastWrite_eq_none_iff.2 hafter, Option.none_or, lastWrite_append,
    lastWrite_singleton, if_pos rfl, Option.some_or]

theorem lastWrite_eq_some_iff
    {entries : List Entry} :
    lastWrite g entries = some m ↔
      ∃ before after, entries = before ++ (g, m) :: after ∧ ∀ e ∈ after, e.1 ≠ g := by
  constructor
  · intro h
    induction entries with
    | nil => cases h
    | cons e rest ih =>
        obtain ⟨k, n⟩ := e
        rw [lastWrite_cons] at h
        cases hrest : lastWrite g rest with
        | some l =>
            rw [hrest, Option.some_or, ← hrest] at h
            obtain ⟨before, after, rfl, hafter⟩ := ih h
            exact ⟨(k, n) :: before, after, rfl, hafter⟩
        | none =>
            rw [hrest, Option.none_or] at h
            obtain ⟨rfl, hn⟩ := Option.ite_none_right_eq_some.1 h
            cases hn
            exact ⟨[], rest, rfl, lastWrite_eq_none_iff.1 hrest⟩
  · rintro ⟨before, after, rfl, hafter⟩
    exact lastWrite_append_cons hafter

theorem mem_of_lastWrite_eq_some
    {entries : List Entry}
    (h : lastWrite g entries = some m) :
    (g, m) ∈ entries :=
  List.mem_reverse.1 (Entries.mem_of_find?_eq_some h)

/-- Later writes win, and what is not written stays. -/
theorem get?_extend (models : ModelMap) (entries : List Entry) :
    (models.extend entries).get? g = (lastWrite g entries).or (models.get? g) := by
  induction entries generalizing models with
  | nil => rfl
  | cons e rest ih =>
      obtain ⟨k, m⟩ := e
      have hstep : models.extend ((k, m) :: rest) = (models.insert k m).extend rest := rfl
      rw [hstep, ih, get?_insert, lastWrite_cons, Option.or_assoc]
      split <;> rfl

theorem get?_ofList (entries : List Entry) :
    (ofList entries).get? g = lastWrite g entries := by
  rw [ofList, get?_extend, get?_empty, Option.or_none]

/-- Of sorted entries with one signature the last is kept. -/
theorem find?_keepLast
    {entries : List Entry}
    (h : entries.Pairwise fun a b => Entries.ordered a b) :
    Entries.find? g (Entries.keepLast entries) = lastWrite g entries := by
  induction entries with
  | nil => rfl
  | cons e rest ih =>
      obtain ⟨k, m⟩ := e
      rw [Entries.keepLast, lastWrite_cons]
      split
      · next hhead =>
          rw [ih h.tail]
          by_cases hg : g = k
          · obtain ⟨f, hf, hfk⟩ := Option.map_eq_some_iff.1 hhead
            have hwritten : lastWrite g rest ≠ none := by
              intro hnone
              exact lastWrite_eq_none_iff.1 hnone f (List.mem_of_mem_head? hf) (hfk.trans hg.symm)
            obtain ⟨n, hn⟩ := Option.ne_none_iff_exists'.1 hwritten
            rw [hn, Option.some_or]
          · rw [if_neg hg, Option.or_none]
      · next hhead =>
          rw [Entries.find?_cons, ih h.tail]
          by_cases hg : g = k
          · have hunwritten : lastWrite g rest = none := by
              rw [lastWrite_eq_none_iff, hg]
              intro b hb
              exact (Entries.ne_of_lt (Entries.lt_of_mem_of_ordered h hhead hb)).symm
            rw [if_pos hg, if_pos hg, hunwritten, Option.none_or]
          · rw [if_neg hg, if_neg hg, Option.or_none]

theorem lastWrite_mergeSort (entries : List Entry) :
    lastWrite g (entries.mergeSort Entries.ordered) = lastWrite g entries := by
  rw [lastWrite, lastWrite, ← Entries.find?_filter, List.filter_reverse, Entries.filter_mergeSort,
    ← List.filter_reverse, Entries.find?_filter]

/-- Entries that are collected at once give the map of entries set one after the other. -/
theorem collect_eq_ofList (entries : List Entry) :
    collect entries = ofList entries := by
  refine ext_get? fun g => ?_
  rw [get?_ofList, ← lastWrite_mergeSort, ← find?_keepLast (Entries.pairwise_sort entries)]
  rfl

theorem extend_append (models : ModelMap) (xs ys : List Entry) :
    models.extend (xs ++ ys) = (models.extend xs).extend ys :=
  List.foldl_append

/-- A list with the entries of a map, in any order and repeated or not, is collected as the map. -/
theorem ofList_eq_of_mem_iff
    {models : ModelMap} {entries : List Entry}
    (h : ∀ e, e ∈ entries ↔ e ∈ models.entries) :
    ofList entries = models := by
  refine ext_get? fun g => ?_
  ext m
  rw [get?_ofList, get?_eq_some_iff, ← h]
  refine ⟨mem_of_lastWrite_eq_some, fun hm => ?_⟩
  cases hw : lastWrite g entries with
  | none => exact absurd rfl (lastWrite_eq_none_iff.1 hw _ hm)
  | some n =>
      have hn := mem_of_lastWrite_eq_some hw
      rw [h, ← get?_eq_some_iff] at hm hn
      exact hn.symm.trans hm

/-- The map without the entries that have no model. -/
def modeled (models : ModelMap) : ModelMap where
  entries := models.entries.filter fun e => e.2 ≠ .unmodeled
  ascending := List.Pairwise.filter _ models.ascending

theorem mem_modeled
    {models : ModelMap} :
    (g, m) ∈ models.modeled.entries ↔ (g, m) ∈ models.entries ∧ m ≠ .unmodeled := by
  simp [modeled]

theorem get?_modeled_eq_some_iff
    {models : ModelMap} :
    models.modeled.get? g = some m ↔ models.get? g = some m ∧ m ≠ .unmodeled := by
  rw [get?_eq_some_iff, get?_eq_some_iff, mem_modeled]

/-- A map in which everything has a model is its own modeled part. -/
theorem modeled_eq_self
    {models : ModelMap}
    (h : ∀ e ∈ models.entries, e.2 ≠ .unmodeled) :
    models.modeled = models := by
  refine ext_get? fun g => ?_
  ext m
  rw [get?_modeled_eq_some_iff]
  exact ⟨fun hm => hm.1, fun hm => ⟨hm, h (g, m) (get?_eq_some_iff.1 hm)⟩⟩

/-- Writes that are repeated later leave no trace, not even where a map is stored in between. -/
theorem extend_modeled_extend
    {models : ModelMap} {xs ys : List Entry}
    (hmodels : models.modeled = models) (hsub : xs ⊆ ys) :
    (models.extend xs).modeled.extend ys = models.extend ys := by
  refine ext_get? fun g => ?_
  rw [get?_extend, get?_extend]
  cases hlast : lastWrite g ys with
  | some m => rfl
  | none =>
      have hunwritten : lastWrite g xs = none := by
        rw [lastWrite_eq_none_iff] at hlast ⊢
        intro e he
        exact hlast e (hsub he)
      rw [Option.none_or, Option.none_or]
      ext m
      rw [get?_modeled_eq_some_iff, get?_extend, hunwritten, Option.none_or,
        ← get?_modeled_eq_some_iff, hmodels]

end ModelMap

end LibraryModels
