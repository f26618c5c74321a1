import LibraryModels.Proofs.Yaml.Printed
import LibraryModels.Yaml.Node.OfTokens

/-!
# The nodes of written values

The grammar reads the tokens of a value as its node, whatever tokens follow.  Every reader is given
twice as many steps as there are tokens; the reader of a list needs one step less than that, since
it spends a step for itself on every part.
-/

namespace LibraryModels.Yaml

open Print (styleOf)

namespace Value

variable {label : Type}

mutual

/-- The node of a value, without labels and tags. -/
def node : Value → Node label
  | .string s => .scalar {} s (styleOf s)
  | .sequence items => .sequence {} (itemNodes items)
  | .mapping entries => .mapping {} (entryNodes entries)
  | .tagged _ v => node v
  | .null => .scalar {} "null" .plain
  | .bool b => .scalar {} (boolText b) .plain
  | .number n => .scalar {} (numberText n) .plain

/-- The nodes of items. -/
def itemNodes : List Value → List (Node label)
  | [] => []
  | item :: items => node item :: itemNodes items

/-- The nodes of keys and values. -/
def entryNodes : List (Value × Value) → List (Node label × Node label)
  | [] => []
  | (key, v) :: entries => (node key, node v) :: entryNodes entries

end

end Value

/-- The tokens that the tokens of a value may begin with. -/
def startsNode (bare : Bool) : Token → Bool
  | .scalar .. => true
  | .flowSequenceStart => true
  | .blockSequenceStart => true
  | .blockMappingStart => true
  | .blockEntry => bare
  | _ => false

theorem exists_tokens
    {v : Value}
    (bare : Bool) (h : Regular v) :
    ∃ t ts, v.tokens bare = t :: ts ∧ startsNode bare t = true := by
  cases h with
  | null => exact ⟨_, _, Value.tokens.eq_def _ _, rfl⟩
  | bool b => exact ⟨_, _, Value.tokens.eq_def _ _, rfl⟩
  | number _ => exact ⟨_, _, Value.tokens.eq_def _ _, rfl⟩
  | string s => exact ⟨_, _, Value.tokens.eq_def _ _, rfl⟩
  | noItems => exact ⟨.flowSequenceStart, [.flowSequenceEnd], by simp [Value.tokens], rfl⟩
  | @sequence item items _ _ =>
      cases bare with
      | true =>
          exact ⟨.blockEntry, item.tokens false ++ Value.itemTokens items,
            by simp [Value.tokens, Value.itemTokens], rfl⟩
      | false =>
          exact ⟨.blockSequenceStart, Value.itemTokens (item :: items) ++ [.blockEnd],
            by simp [Value.tokens], rfl⟩
  | mapping _ _ => exact ⟨_, _, Value.tokens.eq_def _ _, rfl⟩

section Readers

variable {handles : Handles} {fuel : Nat} {place : Place} {tokens rest : List Token}

theorem readNode_scalar (s : String) (style : Style) :
    readNode handles (fuel + 1) place (.scalar s style :: rest) =
      some (.scalar {} s style, rest) := by
  simp [readNode, readProperties, scalarNode]

theorem readNode_brackets :
    readNode handles (fuel + 2) place (.flowSequenceStart :: .flowSequenceEnd :: rest) =
      some (.sequence {} [], rest) := by
  simp [readNode, readProperties, readFlowItems]

theorem readNode_sequence
    {items : List (Node String)}
    (hplace : place.block = true)
    (h : readBlockItems handles fuel tokens = some (items, rest)) :
    readNode handles (fuel + 1) place (.blockSequenceStart :: tokens) =
      some (.sequence {} items, rest) := by
  simp [readNode, readProperties, hplace, h]

theorem readNode_bare
    {items : List (Node String)}
    (hplace : place.unindented = true)
    (h : readUnindentedItems handles fuel (.blockEntry :: tokens) = some (items, rest)) :
    readNode handles (fuel + 1) place (.blockEntry :: tokens) =
      some (.sequence {} items, rest) := by
  simp [readNode, readProperties, hplace, h]

theorem readNode_mapping
    {entries : List (Node String × Node String)}
    (hplace : place.block = true)
    (h : readBlockEntries handles fuel tokens = some (entries, rest)) :
    readNode handles (fuel + 1) place (.blockMappingStart :: tokens) =
      some (.mapping {} entries, rest) := by
  simp [readNode, readProperties, hplace, h]

/-- The tokens of a value are read as its node where such a value may stand. -/
def Reads (v : Value) : Prop :=
  ∀ (handles : Handles) (bare : Bool) (fuel : Nat) (rest : List Token),
    2 * (v.tokens bare).length ≤ fuel →
    (bare = true → rest.head? ≠ some .blockEntry) →
      readNode handles fuel ⟨true, bare⟩ (v.tokens bare ++ rest) = some (v.node, rest)

/-! ## Items -/

theorem endsItem_eq_false
    {v : Value}
    (h : Regular v) (rest : List Token) :
    endsBlockItem (v.tokens false ++ rest) = false ∧
      endsUnindentedItem (v.tokens false ++ rest) = false := by
  obtain ⟨t, ts, htokens, ht⟩ := exists_tokens false h
  rw [htokens, List.cons_append]
  cases t <;> first | exact ⟨rfl, rfl⟩ | cases ht

theorem endsBlockPart_eq_false
    {v : Value}
    (bare : Bool) (h : Regular v) (rest : List Token) :
    endsBlockPart (v.tokens bare ++ rest) = false := by
  obtain ⟨t, ts, htokens, ht⟩ := exists_tokens bare h
  rw [htokens, List.cons_append]
  cases t <;> first | rfl | cases ht

theorem length_tokens_pos
    {v : Value}
    (bare : Bool) (h : Regular v) :
    0 < (v.tokens bare).length := by
  obtain ⟨t, ts, htokens, -⟩ := exists_tokens bare h
  rw [htokens]
  exact Nat.succ_pos _

theorem readBlockItems_itemTokens
    {items : List Value} (fuel : Nat)
    (hregular : ∀ v ∈ items, Regular v) (hitems : ∀ v ∈ items, Reads v)
    (hpos : 0 < fuel) (hfuel : 2 * (Value.itemTokens items).length ≤ fuel + 1) :
    readBlockItems handles fuel (Value.itemTokens items ++ .blockEnd :: rest) =
      some (Value.itemNodes items, rest) := by
  induction items generalizing fuel with
  | nil =>
      obtain ⟨fuel, rfl⟩ := Nat.exists_eq_add_one_of_ne_zero (Nat.ne_of_gt hpos)
      simp [Value.itemTokens, Value.itemNodes, readBlockItems]
  | cons item items ih =>
      obtain ⟨fuel, rfl⟩ := Nat.exists_eq_add_one_of_ne_zero (Nat.ne_of_gt hpos)
      have hitem := hregular item List.mem_cons_self
      have hlength := length_tokens_pos false hitem
      simp only [Value.itemTokens, List.length_cons, List.length_append] at hfuel
      have hread := hitems item List.mem_cons_self handles false fuel
        (Value.itemTokens items ++ .blockEnd :: rest) (by omega) (fun h => by cases h)
      have hrest := ih fuel (fun v hv => hregular v (List.mem_cons_of_mem item hv))
        (fun v hv => hitems v (List.mem_cons_of_mem item hv)) (by omega) (by omega)
      have hends := (endsItem_eq_false hitem (Value.itemTokens items ++ .blockEnd :: rest)).1
      rw [Value.itemTokens, Value.itemNodes, List.cons_append, List.append_assoc, readBlockItems,
        hends]
      simp [Place.anywhere, hread, hrest]

theorem readUnindentedItems_itemTokens
    {items : List Value} (fuel : Nat)
    (hregular : ∀ v ∈ items, Regular v) (hitems : ∀ v ∈ items, Reads v)
    (hpos : 0 < fuel) (hfuel : 2 * (Value.itemTokens items).length ≤ fuel + 1)
    (hrest : rest.head? ≠ some .blockEntry) :
    readUnindentedItems handles fuel (Value.itemTokens items ++ rest) =
      some (Value.itemNodes items, rest) := by
  induction items generalizing fuel with
  | nil =>
      obtain ⟨fuel, rfl⟩ := Nat.exists_eq_add_one_of_ne_zero (Nat.ne_of_gt hpos)
      rw [Value.itemTokens, Value.itemNodes, List.nil_append, readUnindentedItems]
      rintro more rfl
      exact hrest rfl
  | cons item items ih =>
      obtain ⟨fuel, rfl⟩ := Nat.exists_eq_add_one_of_ne_zero (Nat.ne_of_gt hpos)
      have hitem := hregular item List.mem_cons_self
      have hlength := length_tokens_pos false hitem
      simp only [Value.itemTokens, List.length_cons, List.length_append] at hfuel
      have hread := hitems item List.mem_cons_self handles false fuel
        (Value.itemTokens items ++ rest) (by omega) (fun h => by cases h)
      have hlater := ih fuel (fun v hv => hregular v (List.mem_cons_of_mem item hv))
        (fun v hv => hitems v (List.mem_cons_of_mem item hv)) (by omega) (by omega)
      have hends := (endsItem_eq_false hitem (Value.itemTokens items ++ rest)).2
      rw [Value.itemTokens, Value.itemNodes, List.cons_append, List.append_assoc,
        readUnindentedItems, hends]
      simp [Place.anywhere, hread, hlater]

/-! ## Entries -/

theorem readBlockEntries_entryTokens
    {entries : List (Value × Value)} (fuel : Nat)
    (hkeys : ∀ e ∈ entries, isFieldName e.1 = true)
    (hregular : ∀ e ∈ entries, Regular e.2) (hvalues : ∀ e ∈ entries, Reads e.2)
    (hpos : 0 < fuel) (hfuel : 2 * (Value.entryTokens entries).length ≤ fuel + 1) :
    readBlockEntries handles fuel (Value.entryTokens entries ++ .blockEnd :: rest) =
      some (Value.entryNodes entries, rest) := by
  induction entries generalizing fuel with
  | nil =>
      obtain ⟨fuel, rfl⟩ := Nat.exists_eq_add_one_of_ne_zero (Nat.ne_of_gt hpos)
      simp [Value.entryTokens, Value.entryNodes, readBlockEntries]
  | cons entry entries ih =>
      obtain ⟨key, v⟩ := entry
      obtain ⟨s, rfl, -⟩ := Scanner.exists_of_isFieldName (hkeys _ List.mem_cons_self)
      have hv : Regular v := hregular _ List.mem_cons_self
      have hlength := length_tokens_pos true hv
      simp only [Value.entryTokens, Value.tokens, List.length_cons, List.length_append,
        List.length_nil] at hfuel
      obtain ⟨fuel, rfl⟩ : ∃ n, fuel = n + 2 := ⟨fuel - 2, by omega⟩
      have hnext : (Value.entryTokens entries ++ .blockEnd :: rest).head? ≠ some .blockEntry := by
        cases entries with
        | nil => simp [Value.entryTokens]
        | cons entry entries => simp [Value.entryTokens]
      have hread := hvalues _ List.mem_cons_self handles true (fuel + 1)
        (Value.entryTokens entries ++ .blockEnd :: rest) (by simp only; omega) fun _ => hnext
      have hlater := ih (fuel + 1) (fun e he => hkeys e (List.mem_cons_of_mem _ he))
        (fun e he => hregular e (List.mem_cons_of_mem _ he))
        (fun e he => hvalues e (List.mem_cons_of_mem _ he)) (by omega) (by omega)
      have hends := endsBlockPart_eq_false true hv (Value.entryTokens entries ++ .blockEnd :: rest)
      have hname : ∀ more, endsBlockPart (.scalar s (styleOf s) :: more) = false := fun _ => rfl
      simp only [Value.entryTokens, Value.entryNodes, Value.tokens, Value.node, List.cons_append,
        List.nil_append, List.append_assoc]
      rw [readBlockEntries, hname]
      simp only [Bool.false_eq_true, if_false, readNode_scalar, Option.bind_eq_bind,
        Option.bind_some, atValue, Bool.not_true, List.tail_cons, hends, Place.inMapping, hread,
        hlater]

/-! ## Values -/

theorem reads_scalar
    {v : Value} {s : String} {style : Style}
    (htokens : ∀ bare, v.tokens bare = [.scalar s style])
    (hnode : v.node = (.scalar {} s style : Node String)) :
    Reads v := by
  intro handles bare fuel rest hfuel _
  rw [htokens] at hfuel
  obtain ⟨fuel, rfl⟩ : ∃ n, fuel = n + 1 := ⟨fuel - 1, by simp at hfuel; omega⟩
  rw [htokens, hnode]
  exact readNode_scalar s style

theorem reads_noItems :
    Reads (.sequence []) := by
  intro handles bare fuel rest hfuel _
  simp only [Value.tokens, List.isEmpty_nil, if_true, List.length_cons, List.length_nil] at hfuel
  obtain ⟨fuel, rfl⟩ : ∃ n, fuel = n + 2 := ⟨fuel - 2, by omega⟩
  simp only [Value.tokens, List.isEmpty_nil, if_true, Value.node, Value.itemNodes]
  exact readNode_brackets

/-- Where no mark of a sequence stands, what follows must not begin with another item. -/
theorem reads_sequence
    {item : Value} {items : List Value}
    (hregular : ∀ v ∈ item :: items, Regular v) (hreads : ∀ v ∈ item :: items, Reads v) :
    Reads (.sequence (item :: items)) := by
  intro handles bare fuel rest hfuel hrest
  rw [Value.node]
  have hlength := length_tokens_pos false (hregular item List.mem_cons_self)
  cases bare with
  | true =>
      have htokens : (Value.sequence (item :: items)).tokens true =
          Value.itemTokens (item :: items) := by simp [Value.tokens]
      have hfirst : Value.itemTokens (item :: items) =
          .blockEntry :: (item.tokens false ++ Value.itemTokens items) := by
        rw [Value.itemTokens]
      rw [htokens] at hfuel ⊢
      obtain ⟨fuel, rfl⟩ : ∃ n, fuel = n + 1 :=
        ⟨fuel - 1, by simp [hfirst] at hfuel; omega⟩
      have hread : readUnindentedItems handles fuel
          (Value.itemTokens (item :: items) ++ rest) = _ :=
        readUnindentedItems_itemTokens fuel hregular hreads
          (by simp [hfirst] at hfuel; omega) hfuel (hrest rfl)
      rw [hfirst] at hread ⊢
      exact readNode_bare rfl hread
  | false =>
      have htokens : (Value.sequence (item :: items)).tokens false =
          .blockSequenceStart :: (Value.itemTokens (item :: items) ++ [.blockEnd]) := by
        simp [Value.tokens]
      rw [htokens] at hfuel ⊢
      simp only [List.length_cons, List.length_append, List.length_nil] at hfuel
      obtain ⟨fuel, rfl⟩ : ∃ n, fuel = n + 1 := ⟨fuel - 1, by omega⟩
      rw [List.cons_append, List.append_assoc]
      exact readNode_sequence rfl (readBlockItems_itemTokens fuel hregular hreads (by omega)
        (by omega))

theorem reads_mapping
    {entries : List (Value × Value)}
    (hkeys : ∀ e ∈ entries, isFieldName e.1 = true)
    (hregular : ∀ e ∈ entries, Regular e.2) (hvalues : ∀ e ∈ entries, Reads e.2) :
    Reads (.mapping entries) := by
  intro handles bare fuel rest hfuel _
  rw [Value.node]
  rw [Value.tokens] at hfuel ⊢
  simp only [List.length_cons, List.length_append, List.length_nil] at hfuel
  obtain ⟨fuel, rfl⟩ : ∃ n, fuel = n + 1 := ⟨fuel - 1, by omega⟩
  rw [List.cons_append, List.append_assoc]
  exact readNode_mapping rfl (readBlockEntries_entryTokens fuel hkeys hregular hvalues
    (by omega) (by omega))

/-- The tokens of every regular value are read as its node. -/
theorem reads_of_regular
    {v : Value}
    (h : Regular v) :
    Reads v := by
  induction h with
  | null => exact reads_scalar (fun bare => by rw [Value.tokens]) (by rw [Value.node])
  | bool b => exact reads_scalar (fun bare => by rw [Value.tokens]) (by rw [Value.node])
  | number h => exact reads_scalar (fun bare => by rw [Value.tokens]) (by rw [Value.node])
  | string s => exact reads_scalar (fun bare => by rw [Value.tokens]) (by rw [Value.node])
  | noItems => exact reads_noItems
  | sequence hitem hitems ihItem ihItems =>
      apply reads_sequence
      · exact List.forall_mem_cons.mpr ⟨hitem, hitems⟩
      · exact List.forall_mem_cons.mpr ⟨ihItem, ihItems⟩
  | mapping hkeys hvalues ihValues => exact reads_mapping hkeys hvalues ihValues

end Readers

end LibraryModels.Yaml
