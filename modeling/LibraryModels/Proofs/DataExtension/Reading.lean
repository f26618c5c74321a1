import LibraryModels.Proofs.DataExtension

/-!
# Reading a document row by row

A document is read by going through the rows of its blocks in order.  A row that says something
overwrites what was read for its signature before, and a row or block that says nothing is passed
over.  What the map gives for a signature is therefore decided by the last row that is read as an
entry of that signature, and only the order of the blocks that have such a row matters.
-/

namespace LibraryModels

/-- A row of a document, and the kind that the predicate of its block gives it. -/
structure KindedRow where
  kind : Kind
  cells : List Yaml.Value

namespace KindedRow

variable {g : Signature} {m : Method} {row : KindedRow}

/-- The entry that a row is read as. -/
def entry? (row : KindedRow) : Option Entry :=
  Row.ofCells? row.kind row.cells

/-- The method that a row gives for `g`. -/
def method? (g : Signature) (row : KindedRow) : Option Method :=
  row.entry?.bind fun e => if e.1 = g then some e.2 else none

theorem method?_eq_some_iff : row.method? g = some m ↔ row.entry? = some (g, m) := by
  rw [method?, Option.bind_eq_some_iff]
  constructor
  · rintro ⟨⟨k, n⟩, hentry, hm⟩
    obtain ⟨hk, hm⟩ := Option.ite_none_right_eq_some.1 hm
    have hpair : (k, n) = (g, m) := Prod.ext hk (Option.some.inj hm)
    rw [hentry, hpair]
  · intro hentry
    exact ⟨(g, m), hentry, if_pos rfl⟩

theorem method?_eq_none_iff : row.method? g = none ↔ ∀ m, row.entry? ≠ some (g, m) := by
  rw [Option.eq_none_iff_forall_ne_some]
  exact forall_congr' fun m => not_congr method?_eq_some_iff

end KindedRow

/-- The rows of a block, if its predicate is supported. -/
def Block.kindedRows (b : Block) : List KindedRow :=
  match b.kind? with
  | some kind => b.rows.map (KindedRow.mk kind)
  | none => []

/-- The rows of the blocks with a supported predicate, in the order of the document. -/
def DataExtension.rows (d : DataExtension) : List KindedRow :=
  d.blocks.flatMap Block.kindedRows

namespace ModelMap

variable {g : Signature} {m : Method} {rows : List KindedRow}

/-- The map after one more row was read. -/
def readRow (models : ModelMap) (row : KindedRow) : ModelMap :=
  match row.entry? with
  | some e => models.insert e.1 e.2
  | none => models

/-- A row decides what the map gives for its own signature, and nothing else. -/
theorem get?_readRow (models : ModelMap) (row : KindedRow) :
    (models.readRow row).get? g = (row.method? g).or (models.get? g) := by
  rw [readRow, KindedRow.method?]
  cases row.entry? with
  | none => rfl
  | some e =>
      show (models.insert e.1 e.2).get? g = (if e.1 = g then some e.2 else none).or _
      rw [get?_insert]
      by_cases hg : g = e.1
      · rw [if_pos hg, if_pos hg.symm, Option.some_or]
      · rw [if_neg hg, if_neg (Ne.symm hg), Option.none_or]

/-- The method that the last row with one for `g` gives. -/
def lastRead (g : Signature) (rows : List KindedRow) : Option Method :=
  rows.reverse.findSome? (KindedRow.method? g)

theorem lastRead_append (xs ys : List KindedRow) :
    lastRead g (xs ++ ys) = (lastRead g ys).or (lastRead g xs) := by
  rw [lastRead, List.reverse_append, List.findSome?_append]
  rfl

theorem lastRead_cons (row : KindedRow) (rows : List KindedRow) :
    lastRead g (row :: rows) = (lastRead g rows).or (row.method? g) := by
  rw [← List.singleton_append, lastRead_append]
  exact congrArg (lastRead g rows).or List.findSome?_singleton

theorem lastRead_eq_none_iff :
    lastRead g rows = none ↔ ∀ row ∈ rows, ∀ m, row.entry? ≠ some (g, m) := by
  rw [lastRead, List.findSome?_eq_none_iff]
  simp only [List.mem_reverse, KindedRow.method?_eq_none_iff]

/-- A row that is read as `m` for `g`, and after it no row of `g`. -/
def ReadLast (rows : List KindedRow) (g : Signature) (m : Method) : Prop :=
  ∃ before row after, rows = before ++ row :: after ∧ row.entry? = some (g, m) ∧
    ∀ later ∈ after, ∀ n, later.entry? ≠ some (g, n)

theorem lastRead_eq_some_iff : lastRead g rows = some m ↔ ReadLast rows g m := by
  rw [lastRead, List.findSome?_eq_some_iff]
  simp only [KindedRow.method?_eq_some_iff, KindedRow.method?_eq_none_iff]
  constructor
  · rintro ⟨after, row, before, hrows, hrow, hafter⟩
    refine ⟨before.reverse, row, after.reverse, ?_, hrow, ?_⟩
    · rw [List.reverse_eq_append_iff] at hrows
      rw [hrows, List.reverse_cons, List.append_assoc, List.singleton_append]
    · intro later hlater
      exact hafter later (List.mem_reverse.1 hlater)
  · rintro ⟨before, row, after, rfl, hrow, hafter⟩
    refine ⟨after.reverse, row, before.reverse, by simp, hrow, ?_⟩
    intro later hlater
    exact hafter later (List.mem_reverse.1 hlater)

/-- Rows that are read one after the other: the last row of a signature wins. -/
theorem get?_foldl_readRow (models : ModelMap) (rows : List KindedRow) :
    (rows.foldl readRow models).get? g = (lastRead g rows).or (models.get? g) := by
  -- on the rows that are left, from any map, since each row leaves a map of its own
  induction rows generalizing models with
  | nil => rfl
  | cons row rest ih =>
      rw [List.foldl_cons, ih, get?_readRow, lastRead_cons, Option.or_assoc]

end ModelMap

/-! ## Blocks -/

namespace Block

variable {b : Block} {g : Signature}

theorem entries_eq (b : Block) : b.entries = b.kindedRows.filterMap KindedRow.entry? := by
  unfold entries kindedRows
  cases b.kind? with
  | none => rfl
  | some kind =>
      show b.rows.filterMap _ = (b.rows.map (KindedRow.mk kind)).filterMap KindedRow.entry?
      rw [List.filterMap_map]
      rfl

theorem kind?_eq_none_iff : b.kind? = none ↔ ∀ kind : Kind, b.predicate ≠ kind.predicate := by
  rw [kind?, Option.eq_none_iff_forall_ne_some]
  exact forall_congr' fun kind => not_congr Kind.ofPredicate?_eq_some_iff

theorem entries_of_unsupported
    (h : ∀ kind : Kind, b.predicate ≠ kind.predicate) :
    b.entries = [] := by
  rw [entries, kind?_eq_none_iff.2 h]

theorem entries_of_supported
    {kind : Kind}
    (h : b.predicate = kind.predicate) :
    b.entries = b.rows.filterMap (Row.ofCells? kind) := by
  have hkind : b.kind? = some kind := Kind.ofPredicate?_eq_some_iff.2 h
  rw [entries, hkind]

/-- A row that is not read as anything may as well be left out of its block. -/
theorem entries_of_unreadable
    {cells : List Yaml.Value}
    (h : ∀ kind : Kind, b.predicate = kind.predicate → Row.ofCells? kind cells = none)
    (before after : List (List Yaml.Value)) :
    { b with rows := before ++ cells :: after }.entries =
      { b with rows := before ++ after }.entries := by
  by_cases hsupported : ∃ kind : Kind, b.predicate = kind.predicate
  · obtain ⟨kind, hkind⟩ := hsupported
    rw [entries_of_supported (b := { b with rows := before ++ cells :: after }) hkind,
      entries_of_supported (b := { b with rows := before ++ after }) hkind]
    show List.filterMap _ (before ++ cells :: after) = List.filterMap _ (before ++ after)
    rw [List.filterMap_append, List.filterMap_cons_none (h kind hkind), List.filterMap_append]
  · have hnone : ∀ kind : Kind, b.predicate ≠ kind.predicate := by
      intro kind hkind
      exact hsupported ⟨kind, hkind⟩
    rw [entries_of_unsupported (b := { b with rows := before ++ cells :: after }) hnone,
      entries_of_unsupported (b := { b with rows := before ++ after }) hnone]

/-- Some row of the block is read as an entry of `g`. -/
def Concerns (g : Signature) (b : Block) : Prop :=
  ∃ row ∈ b.kindedRows, (row.method? g).isSome

instance (g : Signature) : DecidablePred (Concerns g) :=
  fun b => inferInstanceAs (Decidable (∃ row ∈ b.kindedRows, (row.method? g).isSome))

theorem lastRead_of_not_concerns
    (h : ¬ b.Concerns g) :
    ModelMap.lastRead g b.kindedRows = none := by
  rw [ModelMap.lastRead_eq_none_iff]
  intro row hrow m hentry
  apply h
  refine ⟨row, hrow, ?_⟩
  rw [KindedRow.method?_eq_some_iff.2 hentry]
  rfl

/-- No signature has a row in both blocks. -/
def Apart (a b : Block) : Prop :=
  ∀ g, ¬ (a.Concerns g ∧ b.Concerns g)

end Block

namespace DataExtension

/-- Of the blocks of a document only those with a row of a signature matter for it. -/
theorem lastRead_flatMap_filter (g : Signature) (blocks : List Block) :
    ModelMap.lastRead g ((blocks.filter (Block.Concerns g)).flatMap Block.kindedRows) =
      ModelMap.lastRead g (blocks.flatMap Block.kindedRows) := by
  induction blocks with
  | nil => rfl
  | cons b rest ih =>
      rw [List.flatMap_cons, ModelMap.lastRead_append, ← ih]
      by_cases hb : b.Concerns g
      · rw [List.filter_cons_of_pos (by simpa using hb), List.flatMap_cons,
          ModelMap.lastRead_append]
      · rw [List.filter_cons_of_neg (by simpa using hb), Block.lastRead_of_not_concerns hb,
          Option.or_none]

/-- Reading a document is reading its rows one after the other. -/
theorem toModels_eq_foldl (d : DataExtension) :
    d.toModels = d.rows.foldl ModelMap.readRow ModelMap.empty := by
  have hentries : d.entries = d.rows.filterMap KindedRow.entry? := by
    rw [entries, rows, List.filterMap_flatMap]
    exact congrArg (d.blocks.flatMap ·) (funext Block.entries_eq)
  rw [toModels, hentries, ModelMap.ofList, ModelMap.extend, List.foldl_filterMap]
  congr 1
  funext models row
  rw [ModelMap.readRow]
  cases row.entry? with
  | none => rfl
  | some e => rfl

theorem toModels_eq_of_entries_eq
    {xs ys : List Block}
    (h : xs.flatMap Block.entries = ys.flatMap Block.entries) :
    (DataExtension.mk xs).toModels = (DataExtension.mk ys).toModels :=
  congrArg ModelMap.ofList h

theorem get?_toModels (d : DataExtension) (g : Signature) :
    d.toModels.get? g = ModelMap.lastRead g d.rows := by
  rw [toModels_eq_foldl, ModelMap.get?_foldl_readRow, ModelMap.get?_empty, Option.or_none]

/-- What the blocks of a document say does not depend on their packs. -/
theorem flatMap_entries_eq (blocks : List Block) :
    blocks.flatMap Block.entries =
      (blocks.map fun b => (b.predicate, b.rows)).flatMap
        fun c => (Block.mk "" c.1 c.2).entries := by
  rw [List.flatMap_map]
  rfl

/-- Documents in which the blocks of each signature stand in the same order are read alike. -/
theorem toModels_eq_of_filter_eq
    {xs ys : List Block}
    (h : ∀ g, xs.filter (Block.Concerns g) = ys.filter (Block.Concerns g)) :
    (DataExtension.mk xs).toModels = (DataExtension.mk ys).toModels := by
  refine ModelMap.ext_get? fun g => ?_
  rw [get?_toModels, get?_toModels, rows, rows]
  show ModelMap.lastRead g (xs.flatMap _) = ModelMap.lastRead g (ys.flatMap _)
  rw [← lastRead_flatMap_filter g xs, h g, lastRead_flatMap_filter]

theorem filter_concerns_eq_of_perm
    {xs ys : List Block}
    (hperm : xs.Perm ys) (hapart : xs.Pairwise Block.Apart) (g : Signature) :
    xs.filter (Block.Concerns g) = ys.filter (Block.Concerns g) := by
  have hsymm : ∀ {a b : Block}, a.Apart b → b.Apart a := by
    intro a b h k hk
    exact h k hk.symm
  -- among blocks that are apart at most one is left, and so in only one order
  have halone : ∀ {zs : List Block}, zs.Pairwise Block.Apart →
      (zs.filter (Block.Concerns g)).Pairwise fun _ _ => False := by
    intro zs hzs
    refine (hzs.filter _).imp_of_mem ?_
    intro a b ha hb hab
    have hga : a.Concerns g := by simpa using (List.mem_filter.1 ha).2
    have hgb : b.Concerns g := by simpa using (List.mem_filter.1 hb).2
    exact hab g ⟨hga, hgb⟩
  refine List.Perm.eq_of_pairwise ?_ (halone hapart) (halone ?_) (hperm.filter _)
  · intro a b _ _ hab
    exact hab.elim
  · exact (hperm.pairwise_iff hsymm).1 hapart

/--
What a document gives for a signature is what its last row of that signature says, where rows of
unsupported blocks and rows that are not read as anything count for nothing.  The packs do not
matter, and neither does the order of blocks that have no signature in common.
-/
theorem last_row_wins :
    (∀ d : DataExtension, d.toModels = d.rows.foldl ModelMap.readRow ModelMap.empty) ∧
      (∀ (d : DataExtension) g m, d.toModels.get? g = some m ↔ ModelMap.ReadLast d.rows g m) ∧
      (∀ (d : DataExtension) g,
        d.toModels.get? g = none ↔ ∀ row ∈ d.rows, ∀ m, row.entry? ≠ some (g, m)) ∧
      (∀ (before : List Block) b after, (∀ kind : Kind, b.predicate ≠ kind.predicate) →
        (DataExtension.mk (before ++ b :: after)).toModels =
          (DataExtension.mk (before ++ after)).toModels) ∧
      (∀ before (b : Block) after cells rows₁ rows₂,
        (∀ kind : Kind, b.predicate = kind.predicate → Row.ofCells? kind cells = none) →
          (DataExtension.mk
              (before ++ { b with rows := rows₁ ++ cells :: rows₂ } :: after)).toModels =
            (DataExtension.mk (before ++ { b with rows := rows₁ ++ rows₂ } :: after)).toModels) ∧
      (∀ xs ys : List Block,
        (xs.map fun b => (b.predicate, b.rows)) = (ys.map fun b => (b.predicate, b.rows)) →
          (DataExtension.mk xs).toModels = (DataExtension.mk ys).toModels) ∧
      (∀ xs ys : List Block, xs.Perm ys → xs.Pairwise Block.Apart →
        (DataExtension.mk xs).toModels = (DataExtension.mk ys).toModels) ∧
      ∀ xs ys : List Block,
        (∀ g, xs.filter (Block.Concerns g) = ys.filter (Block.Concerns g)) →
          (DataExtension.mk xs).toModels = (DataExtension.mk ys).toModels := by
  refine ⟨toModels_eq_foldl, ?_, ?_, ?_, ?_, ?_, ?_, ?_⟩
  · intro d g m
    rw [get?_toModels]
    exact ModelMap.lastRead_eq_some_iff
  · intro d g
    rw [get?_toModels]
    exact ModelMap.lastRead_eq_none_iff
  · intro before b after hb
    apply toModels_eq_of_entries_eq
    rw [List.flatMap_append, List.flatMap_cons, Block.entries_of_unsupported hb,
      List.flatMap_append, List.nil_append]
  · intro before b after cells rows₁ rows₂ hcells
    apply toModels_eq_of_entries_eq
    rw [List.flatMap_append, List.flatMap_cons, Block.entries_of_unreadable hcells,
      List.flatMap_append, List.flatMap_cons]
  · intro xs ys h
    apply toModels_eq_of_entries_eq
    rw [flatMap_entries_eq, h, ← flatMap_entries_eq]
  · intro xs ys hperm hapart
    apply toModels_eq_of_filter_eq
    intro g
    exact filter_concerns_eq_of_perm hperm hapart g
  · intro xs ys h
    exact toModels_eq_of_filter_eq h

end DataExtension

end LibraryModels
