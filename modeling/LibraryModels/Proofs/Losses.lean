import LibraryModels.Proofs.DataExtension.Reading
import LibraryModels.Proofs.Generator.Run
import Mathlib.Algebra.Ring.Nat

/-!
# What is lost is reported

A row of a document and a tuple of a query are passed over if they describe no model.  A document
is gone through with a counter beside the map, a table is compared with what was read of it; both
ways the number in a warning is the number of rows that were passed over, and with the rows that
were read it makes up all rows, whether or not these overwrite each other.
-/

namespace LibraryModels

open DataExtension (Warning)

/-- What a reader passes over and what it reads is everything. -/
theorem countP_isNone_add_length_filterMap
    {α β : Type} (f : α → Option β) (xs : List α) :
    (xs.countP fun x => (f x).isNone) + (xs.filterMap f).length = xs.length := by
  induction xs with
  | nil => rfl
  | cons x xs ih =>
      rw [List.countP_cons, List.filterMap_cons, List.length_cons]
      cases f x with
      | none =>
          simp only [Option.isNone_none, if_true]
          omega
      | some y =>
          simp only [Option.isNone_some, Bool.false_eq_true, if_false, List.length_cons]
          omega

/-! ## Documents -/

namespace Block

variable {b : Block} {kind : Kind}

/-- How many rows of a block are not read as models of a kind. -/
def unread (b : Block) (kind : Kind) : Nat :=
  b.rows.countP fun cells => (Row.ofCells? kind cells).isNone

theorem unread_eq_zero_iff :
    b.unread kind = 0 ↔ ∀ cells ∈ b.rows, Row.ofCells? kind cells ≠ none := by
  simp [unread, List.countP_eq_zero]

theorem unread_add_length_entries
    (h : b.kind? = some kind) :
    b.unread kind + b.entries.length = b.rows.length := by
  rw [entries, h]
  exact countP_isNone_add_length_filterMap _ _

theorem warning?_of_supported
    (h : b.kind? = some kind) :
    b.warning? =
      if b.unread kind = 0 then none
      else some (.droppedRows (b.unread kind) b.rows.length kind) := by
  have hdropped : b.rows.length - b.entries.length = b.unread kind :=
    Nat.sub_eq_of_eq_add (unread_add_length_entries h).symm
  rw [warning?, h]
  simp only [hdropped]

/-- What has to be said about a block that was gone through. -/
inductive Reported (b : Block) : Option Warning → Prop
  | unsupported
      (hpredicate : ∀ kind : Kind, b.predicate ≠ kind.predicate) :
      Reported b (some (.unsupportedPredicate b.predicate))
  | dropped {kind : Kind}
      (hpredicate : b.predicate = kind.predicate)
      (hrow : ∃ cells ∈ b.rows, Row.ofCells? kind cells = none) :
      Reported b (some (.droppedRows (b.unread kind) b.rows.length kind))
  | complete {kind : Kind}
      (hpredicate : b.predicate = kind.predicate)
      (hrows : ∀ cells ∈ b.rows, Row.ofCells? kind cells ≠ none) :
      Reported b none

theorem reported_warning? (b : Block) : b.Reported b.warning? := by
  cases hkind : b.kind? with
  | none =>
      rw [warning?, hkind]
      exact .unsupported (kind?_eq_none_iff.1 hkind)
  | some kind =>
      have hpredicate := Kind.ofPredicate?_eq_some_iff.1 hkind
      rw [warning?_of_supported hkind]
      split
      · next hnone => exact .complete hpredicate (unread_eq_zero_iff.1 hnone)
      · next hsome =>
          rw [unread_eq_zero_iff] at hsome
          push Not at hsome
          exact .dropped hpredicate hsome

end Block

namespace DataExtension

/-- How many rows a warning is about. -/
def Warning.dropped : Warning → Nat
  | .unsupportedPredicate _ => 0
  | .droppedRows dropped _ _ => dropped

/-- The rows of a block that were read, and those that its warning is about. -/
theorem length_kindedRows (b : Block) :
    (b.kindedRows.filterMap KindedRow.entry?).length + (b.warning?.map Warning.dropped).getD 0 =
      b.kindedRows.length := by
  rw [← Block.entries_eq]
  cases hkind : b.kind? with
  | none =>
      rw [Block.warning?, Block.entries, Block.kindedRows, hkind]
      rfl
  | some kind =>
      have hrows : b.kindedRows.length = b.rows.length := by
        rw [Block.kindedRows, hkind]
        exact List.length_map _
      have hdropped : (b.warning?.map Warning.dropped).getD 0 = b.unread kind := by
        rw [Block.warning?_of_supported hkind]
        split
        · next hnone => exact hnone.symm
        · rfl
      rw [hrows, hdropped, Nat.add_comm]
      exact Block.unread_add_length_entries hkind

theorem length_rows (d : DataExtension) :
    (d.rows.filterMap KindedRow.entry?).length + (d.warnings.map Warning.dropped).sum =
      d.rows.length := by
  have hblocks : ∀ blocks : List Block,
      ((blocks.flatMap Block.kindedRows).filterMap KindedRow.entry?).length +
          ((blocks.filterMap Block.warning?).map Warning.dropped).sum =
        (blocks.flatMap Block.kindedRows).length := by
    intro blocks
    induction blocks with
    | nil => rfl
    | cons b blocks ih =>
        have hb := length_kindedRows b
        have hsum : (((b :: blocks).filterMap Block.warning?).map Warning.dropped).sum =
            (b.warning?.map Warning.dropped).getD 0 +
              ((blocks.filterMap Block.warning?).map Warning.dropped).sum := by
          rw [List.filterMap_cons]
          cases b.warning? with
          | none => exact (Nat.zero_add _).symm
          | some w => rfl
        rw [List.flatMap_cons, List.filterMap_append, List.length_append, List.length_append, hsum]
        omega
  exact hblocks d.blocks

/-! ### Row by row -/

/-- What is known after some rows: the models so far, and how many rows were no models. -/
structure Tally where
  models : ModelMap
  dropped : Nat

/-- Goes on with the next row. -/
def Tally.addRow (kind : Kind) (t : Tally) (cells : List Yaml.Value) : Tally :=
  match Row.ofCells? kind cells with
  | some e => { t with models := t.models.insert e.1 e.2 }
  | none => { t with dropped := t.dropped + 1 }

theorem Tally.foldl_addRow (kind : Kind) (rows : List (List Yaml.Value)) (t : Tally) :
    rows.foldl (addRow kind) t =
      ⟨t.models.extend (rows.filterMap (Row.ofCells? kind)),
        t.dropped + rows.countP fun cells => (Row.ofCells? kind cells).isNone⟩ := by
  -- on the rows, from any tally: a row that is read counts for the map, another one for the counter
  induction rows generalizing t with
  | nil => rfl
  | cons cells rows ih =>
      rw [List.foldl_cons, ih, addRow]
      cases hread : Row.ofCells? kind cells with
      | none => simp [hread, Nat.add_assoc, Nat.add_comm 1]
      | some e =>
          simp only [List.filterMap_cons, hread, List.countP_cons, Option.isNone_some,
            Bool.false_eq_true, if_false, Nat.add_zero]
          rfl

/-- What is known after some blocks: the models so far, and what was passed over. -/
structure Pass where
  models : ModelMap
  warnings : List Warning

/-- Goes on with the next block, whose rows are counted as they are read. -/
def Pass.addBlock (p : Pass) (b : Block) : Pass :=
  match b.kind? with
  | none => { p with warnings := p.warnings ++ [.unsupportedPredicate b.predicate] }
  | some kind =>
    let t := b.rows.foldl (Tally.addRow kind) ⟨p.models, 0⟩
    ⟨t.models,
      p.warnings ++
        if t.dropped = 0 then [] else [.droppedRows t.dropped b.rows.length kind]⟩

theorem Pass.addBlock_eq (p : Pass) (b : Block) :
    p.addBlock b = ⟨p.models.extend b.entries, p.warnings ++ b.warning?.toList⟩ := by
  rw [addBlock]
  cases hkind : b.kind? with
  | none =>
      rw [Block.warning?, Block.entries, hkind]
      rfl
  | some kind =>
      have hentries : b.entries = b.rows.filterMap (Row.ofCells? kind) := by
        rw [Block.entries, hkind]
      simp only [Tally.foldl_addRow, Nat.zero_add]
      rw [Block.warning?_of_supported hkind, hentries, Block.unread]
      split
      · rfl
      · rfl

/-- Going through a document block by block and row by row gives its models and its warnings. -/
theorem foldl_addBlock (d : DataExtension) :
    d.blocks.foldl Pass.addBlock ⟨ModelMap.empty, []⟩ = ⟨d.toModels, d.warnings⟩ := by
  have hblocks : ∀ (blocks : List Block) (p : Pass),
      blocks.foldl Pass.addBlock p =
        ⟨p.models.extend (blocks.flatMap Block.entries),
          p.warnings ++ blocks.filterMap Block.warning?⟩ := by
    intro blocks
    induction blocks with
    | nil =>
        intro p
        rw [List.filterMap_nil, List.append_nil]
        rfl
    | cons b blocks ih =>
        intro p
        rw [List.foldl_cons, ih, Pass.addBlock_eq, List.flatMap_cons, ModelMap.extend_append,
          List.filterMap_cons]
        cases b.warning? <;> simp
  exact hblocks d.blocks _

end DataExtension

/-! ## Tables -/

namespace Generator

variable {kind : Kind} {table : Table} {tuple : List Cell}

/-- A tuple that describes no model of a kind. -/
inductive Unreadable (kind : Kind) : List Cell → Prop
  | empty :
      Unreadable kind []
  | noText {cell : Cell} {rest : List Cell}
      (hcell : ∀ s, cell ≠ .text s) :
      Unreadable kind (cell :: rest)
  | noRow {s : String} {rest : List Cell}
      (hrow : Row.ofTuple? kind s = none) :
      Unreadable kind (.text s :: rest)

theorem entryOfTuple?_eq_none_iff :
    entryOfTuple? kind tuple = none ↔ Unreadable kind tuple := by
  constructor
  · intro h
    match tuple, h with
    | [], _ => exact .empty
    | .text s :: rest, h => exact .noRow h
    | .boolean _ :: _, _ | .number _ :: _, _ | .entity _ :: _, _ => exact .noText nofun
  · intro h
    cases h with
    | empty => rfl
    | @noText cell rest hcell =>
        cases cell with
        | text s => exact absurd rfl (hcell s)
        | boolean | number | entity => rfl
    | noRow hrow => exact hrow

instance (kind : Kind) : DecidablePred (Unreadable kind) := fun _ =>
  decidable_of_iff _ (Option.isNone_iff_eq_none.trans entryOfTuple?_eq_none_iff)

/-- How many tuples of a table describe no model of a kind. -/
def unread (kind : Kind) (table : Table) : Nat :=
  table.tuples.countP fun tuple => Unreadable kind tuple

theorem unread_add_length_entriesOfTable (kind : Kind) (table : Table) :
    unread kind table + (entriesOfTable kind table).length = table.tuples.length := by
  have hunread : unread kind table =
      table.tuples.countP fun tuple => (entryOfTuple? kind tuple).isNone := by
    apply List.countP_congr
    intro tuple _
    rw [decide_eq_true_iff, ← entryOfTuple?_eq_none_iff, Option.isNone_iff_eq_none]
  rw [hunread]
  exact countP_isNone_add_length_filterMap _ _

theorem tableWarnings_eq (kind : Kind) (table : Table) :
    tableWarnings kind table =
      if unread kind table = 0 then []
      else [.warning (.droppedRows (unread kind table) table.tuples.length kind)] := by
  have hdropped : table.tuples.length - (entriesOfTable kind table).length = unread kind table :=
    Nat.sub_eq_of_eq_add (unread_add_length_entriesOfTable kind table).symm
  rw [tableWarnings, hdropped]

variable {ε τ : Type}

/--
What a stage whose table was read shows: after its query and the reading, a warning if some tuples
describe no model, and then the models of all other tuples.
-/
structure Accounted (g : Generator ε τ) (r : StageRecord) (table : Table) : Prop where
  delivery?_eq : r.delivery? = some (r.stage.kind, entriesOfTable r.stage.kind table)
  length_le : (entriesOfTable r.stage.kind table).length ≤ table.tuples.length
  unread_eq : unread r.stage.kind table =
    table.tuples.length - (entriesOfTable r.stage.kind table).length
  events_eq : ∃ results set,
    g.stageEvents r =
      g.queryEvents r.stage r.reports r.warnings ++ [.info results, .decode results set] ++
        (if 0 < unread r.stage.kind table then
          [.warning
            (.droppedRows (unread r.stage.kind table) table.tuples.length r.stage.kind)]
        else []) ++
        [.accept r.stage.kind (entriesOfTable r.stage.kind table)]

theorem accounted_of_table?
    {r : StageRecord} (g : Generator ε τ)
    (h : r.table? = some table) :
    g.Accounted r table := by
  have htotal := unread_add_length_entriesOfTable r.stage.kind table
  refine ⟨?_, by omega, by omega, ?_⟩
  · rw [StageRecord.delivery?, h]
    rfl
  · have hwarnings : (if 0 < unread r.stage.kind table then
          [Event.warning
            (.droppedRows (unread r.stage.kind table) table.tuples.length r.stage.kind)]
        else []) = tableWarnings r.stage.kind table := by
      rw [tableWarnings_eq]
      split
      · next hpos => rw [if_neg (by omega)]
      · next hzero => rw [if_pos (by omega)]
    rw [hwarnings]
    obtain ⟨stage, reports, warnings, ending⟩ := r
    cases ending with
    | engineError | infoError | skipped | decodeError => cases h
    | refused results set table | delivered results set table =>
        cases h
        refine ⟨results, set, ?_⟩
        simp [stageEvents, endingEvents]

end Generator

/--
Every block with an unsupported predicate and every other block with rows that are no models has
its warning, in order, and the rows that were read and those in warnings are all rows.  In a run
every stage whose table was read has a warning exactly if some tuples describe no model.
-/
theorem losses_are_reported :
    (∀ d : DataExtension,
      d.blocks.foldl DataExtension.Pass.addBlock ⟨ModelMap.empty, []⟩ =
          ⟨d.toModels, d.warnings⟩ ∧
        d.warnings = d.blocks.filterMap Block.warning? ∧
        (∀ b ∈ d.blocks, b.Reported b.warning?) ∧
        (d.rows.filterMap KindedRow.entry?).length +
            (d.warnings.map DataExtension.Warning.dropped).sum =
          d.rows.length) ∧
      ∀ (ε τ : Type) (g : Generator ε τ) (start : RunState ε τ),
        ∃ records, g.Passes Stage.all start records (g.run start).1 (g.run start).2 ∧
          (g.run start).2.events = start.events ++ records.flatMap g.stageEvents ∧
          ∀ r ∈ records, ∀ table, r.table? = some table → g.Accounted r table := by
  constructor
  · intro d
    exact ⟨d.foldl_addBlock, rfl, fun b _ => b.reported_warning?, d.length_rows⟩
  · intro ε τ g start
    obtain ⟨records, hpasses⟩ := g.exists_passes start
    refine ⟨records, hpasses, hpasses.between.events_eq, ?_⟩
    intro r _ table htable
    exact Generator.accounted_of_table? g htable

end LibraryModels
