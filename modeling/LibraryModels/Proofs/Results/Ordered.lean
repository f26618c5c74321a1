import LibraryModels.Proofs.Json.Stable
import LibraryModels.Results.Json

/-!
# Members in order

Setting members one by one keeps them in strictly ascending order of their names, so the members of
a location are in order at every depth.  A value whose members are in order already stays as it is,
and putting members in order neither nests a value deeper nor changes its numbers.
-/

namespace LibraryModels.Json

/-! ## Names -/

variable {a b c key : String} {v : Value} {members done : List (String × Value)}

theorem nameBefore_iff : nameBefore a b = true ↔ compare (Text.bytes a) (Text.bytes b) = .lt := by
  rw [nameBefore, beq_iff_eq]

theorem nameBefore_trans
    (hab : nameBefore a b = true) (hbc : nameBefore b c = true) :
    nameBefore a c = true := by
  rw [nameBefore_iff] at hab hbc ⊢
  exact Std.TransCmp.lt_trans hab hbc

/-- Of two different names one comes before the other. -/
theorem nameBefore_of_not
    (hne : a ≠ b) (h : ¬nameBefore a b = true) :
    nameBefore b a = true := by
  rw [nameBefore_iff] at h ⊢
  cases hc : compare (Text.bytes a) (Text.bytes b) with
  | lt => exact absurd hc h
  | eq => exact absurd (Text.bytes_inj.1 (Std.LawfulEqCmp.eq_of_compare hc)) hne
  | gt => exact Std.OrientedCmp.gt_iff_lt.1 hc

theorem not_nameBefore
    (h : nameBefore a b = true) :
    b ≠ a ∧ ¬nameBefore b a = true := by
  rw [nameBefore_iff] at h ⊢
  constructor
  · rintro rfl
    have hself : compare (Text.bytes b) (Text.bytes b) = .eq := Std.ReflCmp.compare_self
    rw [hself] at h
    cases h
  · intro hba
    rw [Std.OrientedCmp.gt_iff_lt.2 hba] at h
    cases h

/-! ## Members -/

/-- Members in strictly ascending order of their names. -/
def Ascending (members : List (String × Value)) : Prop :=
  members.Pairwise fun e f => nameBefore e.1 f.1 = true

theorem mem_setMember
    {e : String × Value}
    (h : e ∈ setMember key v members) :
    e = (key, v) ∨ e ∈ members := by
  induction members with
  | nil => exact .inl (List.mem_singleton.1 h)
  | cons first rest ih =>
      rw [setMember] at h
      split at h
      · rw [List.mem_cons] at h
        exact h.imp_right (List.mem_cons_of_mem first)
      · split at h
        · exact List.mem_cons.1 h
        · rcases List.mem_cons.1 h with rfl | hrest
          · exact .inr List.mem_cons_self
          · exact (ih hrest).imp_right (List.mem_cons_of_mem first)

theorem ascending_setMember
    (h : Ascending members) :
    Ascending (setMember key v members) := by
  induction members with
  | nil => exact List.pairwise_singleton _ _
  | cons first rest ih =>
      obtain ⟨hfirst, hrest⟩ := List.pairwise_cons.1 h
      rw [setMember]
      split
      · next heq => exact List.pairwise_cons.2 ⟨by rwa [heq], hrest⟩
      · next hne =>
          split
          · next hbefore =>
              refine List.pairwise_cons.2 ⟨?_, h⟩
              rw [List.forall_mem_cons]
              exact ⟨hbefore, fun e he => nameBefore_trans hbefore (hfirst e he)⟩
          · next hbefore =>
              refine List.pairwise_cons.2 ⟨fun e he => ?_, ih hrest⟩
              rcases mem_setMember he with rfl | he
              · exact nameBefore_of_not hne hbefore
              · exact hfirst e he

/-- A member whose name comes after all others is put at the end. -/
theorem setMember_of_last
    (h : ∀ e ∈ members, nameBefore e.1 key = true) :
    setMember key v members = members ++ [(key, v)] := by
  induction members with
  | nil => rfl
  | cons first rest ih =>
      rw [List.forall_mem_cons] at h
      obtain ⟨hne, hbefore⟩ := not_nameBefore h.1
      rw [setMember, if_neg hne, if_neg hbefore, ih h.2]
      rfl

/-! ## Values -/

/-- A value with the members of every object in strictly ascending order of their names. -/
inductive Ordered : Value → Prop where
  | null : Ordered .null
  | bool (b : Bool) : Ordered (.bool b)
  | number (n : Number) : Ordered (.number n)
  | string (s : String) : Ordered (.string s)
  | array {items : List Value} (h : ∀ v ∈ items, Ordered v) : Ordered (.array items)
  | object {members : List (String × Value)} (hascending : Ascending members)
      (h : ∀ e ∈ members, Ordered e.2) :
      Ordered (.object members)

theorem orderedItems_eq_map (items : List Value) :
    orderedItems items = items.map orderedMembers := by
  induction items with
  | nil => rw [orderedItems, List.map_nil]
  | cons item rest ih => rw [orderedItems, ih, List.map_cons]

theorem orderedObject_eq_foldl (members done : List (String × Value)) :
    orderedObject members done =
      members.foldl (fun done e => setMember e.1 (orderedMembers e.2) done) done := by
  induction members generalizing done with
  | nil => rw [orderedObject, List.foldl_nil]
  | cons e rest ih =>
      obtain ⟨key, v⟩ := e
      rw [orderedObject, ih, List.foldl_cons]

theorem ascending_orderedObject
    (h : Ascending done) :
    Ascending (orderedObject members done) := by
  rw [orderedObject_eq_foldl]
  induction members generalizing done with
  | nil => exact h
  | cons e rest ih => exact ih (ascending_setMember h)

theorem mem_orderedObject
    {e : String × Value}
    (h : e ∈ orderedObject members done) :
    e ∈ done ∨ ∃ f ∈ members, e = (f.1, orderedMembers f.2) := by
  rw [orderedObject_eq_foldl] at h
  induction members generalizing done with
  | nil => exact .inl h
  | cons f rest ih =>
      rcases ih h with hdone | ⟨g, hg, rfl⟩
      · rcases mem_setMember hdone with rfl | hdone
        · exact .inr ⟨f, List.mem_cons_self, rfl⟩
        · exact .inl hdone
      · exact .inr ⟨g, List.mem_cons_of_mem f hg, rfl⟩

mutual

theorem ordered_orderedMembers (v : Value) : Ordered (orderedMembers v) := by
  match v with
  | .null => exact .null
  | .bool b => exact .bool b
  | .number n => exact .number n
  | .string s => exact .string s
  | .array items =>
      rw [orderedMembers]
      exact .array (ordered_orderedItems items)
  | .object members =>
      rw [orderedMembers]
      exact .object (ascending_orderedObject List.Pairwise.nil)
        (ordered_orderedObject members fun _ he => nomatch he)

theorem ordered_orderedItems (items : List Value) : ∀ v ∈ orderedItems items, Ordered v := by
  match items with
  | [] => exact fun _ hv => nomatch hv
  | item :: rest =>
      rw [orderedItems, List.forall_mem_cons]
      exact ⟨ordered_orderedMembers item, ordered_orderedItems rest⟩

theorem ordered_orderedObject
    {done : List (String × Value)} (members : List (String × Value))
    (h : ∀ e ∈ done, Ordered e.2) :
    ∀ e ∈ orderedObject members done, Ordered e.2 := by
  match members with
  | [] =>
      rw [orderedObject]
      exact h
  | (key, v) :: rest =>
      rw [orderedObject]
      apply ordered_orderedObject rest
      intro e he
      rcases mem_setMember he with rfl | he
      · exact ordered_orderedMembers v
      · exact h e he

end

/-- Members that are set in ascending order are put one after the other. -/
theorem orderedObject_of_ascending
    (hascending : Ascending (done ++ members))
    (h : ∀ e ∈ members, orderedMembers e.2 = e.2) :
    orderedObject members done = done ++ members := by
  induction members generalizing done with
  | nil => rw [orderedObject, List.append_nil]
  | cons e rest ih =>
      obtain ⟨key, v⟩ := e
      rw [List.forall_mem_cons] at h
      have hlast : ∀ e ∈ done, nameBefore e.1 key = true := by
        intro e he
        exact (List.pairwise_append.1 hascending).2.2 e he (key, v) List.mem_cons_self
      rw [List.append_cons] at hascending
      rw [orderedObject, show orderedMembers v = v from h.1, setMember_of_last hlast,
        ih hascending h.2, ← List.append_cons]

/-- A value whose members are in order stays as it is. -/
theorem orderedMembers_of_ordered
    (h : Ordered v) :
    orderedMembers v = v := by
  induction h with
  | null | bool | number | string => rfl
  | array _ ih =>
      rw [orderedMembers, orderedItems_eq_map, List.map_congr_left ih, List.map_id']
  | object hascending _ ih =>
      rw [orderedMembers]
      exact congrArg Value.object (orderedObject_of_ascending hascending ih)

theorem orderedMembers_ne_null
    (h : v ≠ .null) :
    orderedMembers v ≠ .null := by
  cases v with
  | null => exact absurd rfl h
  | bool | number | string | array | object =>
      rw [orderedMembers]
      all_goals nofun

theorem stable_orderedMembers
    {depth : Nat}
    (h : Stable depth v) :
    Stable depth (orderedMembers v) := by
  induction h with
  | null => exact .null
  | bool b => exact .bool b
  | number h => exact .number h
  | string s => exact .string s
  | array _ ih =>
      rw [orderedMembers, orderedItems_eq_map]
      exact .array (List.forall_mem_map.2 ih)
  | object _ ih =>
      rw [orderedMembers]
      refine .object fun e he => ?_
      rcases mem_orderedObject he with he | ⟨f, hf, rfl⟩
      · cases he
      · exact ih f hf

end LibraryModels.Json
