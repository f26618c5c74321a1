import LibraryModels.Proofs.Yaml.Allowed
import LibraryModels.Proofs.Yaml.Nodes
import LibraryModels.Yaml.Document

/-!
# Written documents read back

The text of a mapping of fields is read as the document of that mapping: its tokens have no marks
of documents around them, and its node has no labels.
-/

namespace LibraryModels.Yaml

open Print (valueText entryLines entryText isShortKey)

/-! ## Tokens -/

namespace Scanner

variable {tokens : List Token} {outer : List Int} {p : Position}

/-- At the end of the text the one open collection is closed. -/
theorem run_end
    {fuel : Nat}
    (hp : p.column = 0) :
    run (fuel + 1) (block tokens 0 [-1] true none p []) = some (tokens ++ [.blockEnd]) := by
  have hsettle : (block tokens 0 [-1] true none p []).settle =
      some (block tokens 0 [-1] true none p []) := by
    have hskip : skipGap false true false p [] = (true, ⟨[], p⟩) := rfl
    rw [settle_block (by simp) hskip (lapsed_none _), unroll_of_le (by omega)]
  have hclose : (block tokens 0 [-1] true none p []).unroll (-1) =
      block (tokens ++ [.blockEnd]) (-1) [] true none p [] := by
    rw [unroll_of_lt (by decide), unroll_of_le (Int.le_refl _)]
  rw [run_succ, hsettle]
  show finish _ = _
  rw [finish, hclose, block_dropKey]
  simp [block]

end Scanner

/-- The text of a mapping of fields is read as its tokens. -/
theorem tokensOf_documentText
    {entry : Value × Value} {entries : List (Value × Value)}
    (hkeys : ∀ e ∈ entry :: entries, isFieldName e.1 = true)
    (hvalues : ∀ e ∈ entry :: entries, Regular e.2) :
    tokensOf (Print.documentText (entry :: entries)) =
      some ((Value.mapping (entry :: entries)).tokens false) := by
  obtain ⟨key, v⟩ := entry
  let cs := entryLines 0 ((key, v) :: entries)
  have hallowed : cs.all isAllowed = true :=
    List.all_eq_true.mpr (Print.allAllowed_entryLines 0 _ hkeys
      fun e he => Print.allAllowed_valueText (hvalues e he))
  have hstart : Scanner.start cs = Scanner.block [] (-1) [] true none ⟨0, 0, 0⟩ cs := rfl
  have hcs : cs = entryText 0 key (valueText ⟨0, true, true⟩ key)
      (valueText ⟨0, true, ! isShortKey key⟩ v) ++ (entryLines 0 entries ++ []) := by
    simp [cs, entryLines]
  have hline : Scanner.ReachesLine (Scanner.start cs)
      ([] ++ .blockMappingStart :: Value.entryTokens ((key, v) :: entries)) (0 : Nat) [-1] [] := by
    rw [hstart, hcs]
    exact Scanner.reachesLine_entries hkeys (fun e he => Scanner.scans_of_regular (hvalues e he))
      (by decide) rfl .nothing
  obtain ⟨p, hp, hreaches⟩ := hline
  obtain ⟨fuel, hfuel, hrun⟩ := hreaches (cs.length + 1) (Nat.lt_succ_self _)
  obtain ⟨fuel, rfl⟩ := Nat.exists_eq_add_one_of_ne_zero (Nat.ne_zero_of_lt hfuel)
  have htext : (Print.documentText ((key, v) :: entries)).toList = cs := by
    simp [Print.documentText, cs]
  have hread : (Scanner.start cs).run (cs.length + 1) = some _ := hrun.trans (Scanner.run_end hp)
  rw [tokensOf, htext]
  simp only [hallowed, guard, if_true]
  refine hread.trans ?_
  simp [Value.tokens]

/-! ## Nodes -/

mutual

/-- A node without labels keeps its form when labels become numbers. -/
theorem numbered_node (names : Numbering) :
    (v : Value) → (v.node : Node String).numbered names = some (v.node, names)
  | .string s => by simp [Value.node, Node.numbered, Numbering.properties]
  | .null => by simp [Value.node, Node.numbered, Numbering.properties]
  | .bool b => by simp [Value.node, Node.numbered, Numbering.properties]
  | .number n => by simp [Value.node, Node.numbered, Numbering.properties]
  | .tagged _ v => by simp [Value.node, numbered_node names v]
  | .sequence items => by
      simp [Value.node, Node.numbered, Numbering.properties, itemsNumbered_itemNodes names items]
  | .mapping entries => by
      simp [Value.node, Node.numbered, Numbering.properties,
        entriesNumbered_entryNodes names entries]

theorem itemsNumbered_itemNodes (names : Numbering) :
    (items : List Value) →
      Node.itemsNumbered names (Value.itemNodes items) = some (Value.itemNodes items, names)
  | [] => by simp [Value.itemNodes, Node.itemsNumbered]
  | item :: items => by
      simp [Value.itemNodes, Node.itemsNumbered, numbered_node names item,
        itemsNumbered_itemNodes names items]

theorem entriesNumbered_entryNodes (names : Numbering) :
    (entries : List (Value × Value)) →
      Node.entriesNumbered names (Value.entryNodes entries) =
        some (Value.entryNodes entries, names)
  | [] => by simp [Value.entryNodes, Node.entriesNumbered]
  | (key, v) :: entries => by
      simp [Value.entryNodes, Node.entriesNumbered, numbered_node names key, numbered_node names v,
        entriesNumbered_entryNodes names entries]

end

/-- The document of a value that was written. -/
def Document.written (v : Value) : Document :=
  ⟨v.node, (v.node : Node Nat).anchored⟩

/-- The text of a mapping of fields is read as the document of that mapping. -/
theorem ofText?_documentText
    {entry : Value × Value} {entries : List (Value × Value)}
    (hkeys : ∀ e ∈ entry :: entries, isFieldName e.1 = true)
    (hvalues : ∀ e ∈ entry :: entries, Regular e.2) :
    Document.ofText? (Print.documentText (entry :: entries)) =
      some (.written (.mapping (entry :: entries))) := by
  let v := Value.mapping (entry :: entries)
  have hstart : v.tokens false =
      .blockMappingStart :: (Value.entryTokens (entry :: entries) ++ [.blockEnd]) := by
    simp [v, Value.tokens]
  have hread : readNode standardHandles (nodeFuel (v.tokens false)) ⟨true, false⟩
      (v.tokens false ++ []) = some (v.node, []) :=
    reads_of_regular (.mapping hkeys hvalues) standardHandles false _ [] (Nat.le_add_right _ 2)
      fun h => by cases h
  have hdocument : readDocument (v.tokens false) = some (some v.node, []) := by
    rw [List.append_nil] at hread
    rw [hstart] at hread ⊢
    simp [readDocument, Place.anywhere, hread]
  have hnode : nodeOfTokens (v.tokens false) = some (some v.node) := by
    simp [nodeOfTokens, hdocument, guard]
  rw [Document.ofText?, tokensOf_documentText hkeys hvalues]
  simp [v, hnode, Document.ofNode?, numbered_node, Document.written]

end LibraryModels.Yaml
