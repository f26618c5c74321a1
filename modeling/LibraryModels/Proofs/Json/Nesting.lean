import LibraryModels.Json.Decode

/-!
# The nesting of outlines

A decoder may go into containers only so deep.  The limit decides nothing else: an outline that is
not nested that deep is read in the same way whatever the limit is.
-/

namespace LibraryModels.Json.Source

mutual

/-- How deep the containers of an outline are nested. -/
def nesting : Source → Nat
  | .array items _ => itemNesting items + 1
  | .object members _ => memberNesting members + 1
  | _ => 0

/-- How deep the deepest of some items is nested. -/
def itemNesting : List Source → Nat
  | [] => 0
  | item :: rest => max item.nesting (itemNesting rest)

/-- How deep the value of the deepest of some members is nested. -/
def memberNesting : List (Option String × Source) → Nat
  | [] => 0
  | (_, item) :: rest => max item.nesting (memberNesting rest)

end

theorem nesting_le_of_mem
    {depth : Nat} {members : List (Option String × Source)}
    (h : memberNesting members ≤ depth) :
    ∀ member ∈ members, member.2.nesting ≤ depth := by
  induction members with
  | nil =>
      intro member hmember
      exact absurd hmember List.not_mem_nil
  | cons first rest ih =>
      rw [memberNesting, Nat.max_le] at h
      intro member hmember
      rcases List.mem_cons.1 hmember with rfl | hrest
      · exact h.1
      · exact ih h.2 member hrest

mutual

/-- More room than the nesting of an outline needs makes no difference for its value. -/
theorem toValue_succ {depth : Nat} (s : Source) (h : s.nesting ≤ depth) :
    s.toValue (depth + 1) = s.toValue depth := by
  match s with
  | .null | .bool _ | .numeral _ | .string none | .string (some _) | .broken =>
      rw [toValue, toValue]
  | .array items closed =>
      rw [nesting] at h
      obtain ⟨inner, rfl⟩ : ∃ n, depth = n + 1 := ⟨depth - 1, by omega⟩
      rw [toValue, toValue, itemValues_succ items (Nat.le_of_succ_le_succ h)]
  | .object members closed =>
      rw [nesting] at h
      obtain ⟨inner, rfl⟩ : ∃ n, depth = n + 1 := ⟨depth - 1, by omega⟩
      rw [toValue, toValue, memberValues_succ members (Nat.le_of_succ_le_succ h)]

theorem itemValues_succ {depth : Nat} (items : List Source) (h : itemNesting items ≤ depth) :
    itemValues (depth + 1) items = itemValues depth items := by
  match items with
  | [] => rw [itemValues, itemValues]
  | item :: rest =>
      rw [itemNesting, Nat.max_le] at h
      rw [itemValues, itemValues, toValue_succ item h.1, itemValues_succ rest h.2]

theorem memberValues_succ
    {depth : Nat} (members : List (Option String × Source)) (h : memberNesting members ≤ depth) :
    memberValues (depth + 1) members = memberValues depth members := by
  match members with
  | [] => rw [memberValues, memberValues]
  | (none, _) :: _ => rw [memberValues, memberValues]
  | (some key, item) :: rest =>
      rw [memberNesting, Nat.max_le] at h
      rw [memberValues, memberValues, toValue_succ item h.1, memberValues_succ rest h.2]

end

end LibraryModels.Json.Source
