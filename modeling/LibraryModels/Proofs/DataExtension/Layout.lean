import LibraryModels.Proofs.DataExtension
import Mathlib.Algebra.Ring.Nat
import Mathlib.Data.List.Nodup

/-!
# The layout of a written document

A document has one block for each kind of models, in the order of the kinds.  The blocks can be
filled in one pass over the map, where the row of an entry goes to the end of the block at the place
of its kind, or each by itself with the entries of its kind; both ways give the same document.  So
every entry with a model has one row, the rows of a block stand in signature order, and only the
entries without a model have no row.
-/

namespace LibraryModels

namespace Row

variable {g k : Signature} {m n : Method} {kind kind' : Kind} {cells : List Yaml.Value}

/-- Whatever has a kind has a row of that kind. -/
theorem exists_toCells?_of_kind?
    (h : m.kind? = some kind) (g : Signature) :
    ∃ cells, toCells? g m = some (kind, cells) := by
  cases m with
  | unmodeled => cases h
  | summary | sink | source | neutral =>
      cases h
      exact ⟨_, rfl⟩

/-- A row shows the signature that it was written for. -/
theorem signature_eq_of_toCells?
    (hm : toCells? g m = some (kind, cells)) (hn : toCells? k n = some (kind', cells)) :
    g = k := by
  have hparts : g.package = k.package ∧ g.typeName = k.typeName ∧ g.name = k.name ∧
      g.parameters = k.parameters := by
    cases m <;> cases n <;> cases hm <;> simp_all [toCells?, head]
  have hsame : Signature.ofParts? g.package g.typeName g.name g.parameters = some k :=
    Signature.ofParts?_eq_some_iff.2 hparts
  rw [Signature.ofParts?_parts] at hsame
  exact Option.some.inj hsame

end Row

namespace ModelMap

variable {models : ModelMap} {kind : Kind} {e f : Entry}

theorem nodup_ofKind (models : ModelMap) (kind : Kind) : (models.ofKind kind).Nodup :=
  (List.Nodup.of_map _ models.ascending.nodup_map_fst).filter _

theorem mem_ofKind : e ∈ models.ofKind kind ↔ e ∈ models.toList ∧ e.2.kind? = some kind := by
  rw [ofKind, List.mem_filter, beq_iff_eq]
  rfl

/-- The entries of a kind stand in the order of their signatures. -/
theorem pairwise_ofKind (models : ModelMap) (kind : Kind) :
    (models.ofKind kind).Pairwise fun a b => a.1.Precedes b.1 := by
  have hascending : (models.ofKind kind).Pairwise fun a b => a.1 < b.1 :=
    models.ascending.filter _
  apply hascending.imp
  intro a b hab
  exact Signature.lt_iff_precedes.1 hab

/-- A map has one entry for a signature. -/
theorem eq_of_fst_eq
    (he : e ∈ models.toList) (hf : f ∈ models.toList) (h : e.1 = f.1) :
    e = f := by
  obtain ⟨g, m⟩ := e
  obtain ⟨k, n⟩ := f
  have hgk : g = k := h
  subst hgk
  have hm : models.get? g = some m := get?_eq_some_iff.2 he
  have hn : models.get? g = some n := get?_eq_some_iff.2 hf
  rw [hm] at hn
  rw [Option.some.inj hn]

/-- Every entry is of one kind or without a model. -/
theorem sum_length_ofKind (models : ModelMap) :
    (Kind.all.map fun kind => (models.ofKind kind).length).sum +
      (models.toList.filter fun e => e.2 = .unmodeled).length = models.size := by
  show _ + (models.entries.filter _).length = models.entries.length
  simp only [ofKind]
  induction models.entries with
  | nil => rfl
  | cons e rest ih =>
      obtain ⟨g, m⟩ := e
      cases m <;>
        simp_all [Kind.all, Vocabulary.all, Method.kind?] <;>
        omega

end ModelMap

namespace Block

variable {language : String} {models : ModelMap} {kind : Kind} {e : Entry}
variable {cells : List Yaml.Value}

/-- The rows of a block are those of the entries of its kind, one after the other. -/
theorem map_toCells?_ofKind (language : String) (models : ModelMap) (kind : Kind) :
    ((models.ofKind kind).map fun e => Row.toCells? e.1 e.2) =
      (ofModels language models kind).rows.map fun cells => some (kind, cells) := by
  show ((models.entries.filter _).map _) = (models.entries.filterMap (row? kind)).map _
  induction models.entries with
  | nil => rfl
  | cons e rest ih =>
      by_cases hkind : e.2.kind? = some kind
      · obtain ⟨cells, hcells⟩ := Row.exists_toCells?_of_kind? hkind e.1
        have hrow : row? kind e = some cells := row?_eq_some_iff.2 hcells
        rw [List.filter_cons_of_pos (by simpa using hkind), List.map_cons, ih,
          List.filterMap_cons_some hrow, List.map_cons, hcells]
      · have hrow : row? kind e = none := by
          rw [Option.eq_none_iff_forall_ne_some]
          intro cells hcells
          exact hkind (Row.toCells?_kind (row?_eq_some_iff.1 hcells))
        rw [List.filter_cons_of_neg (by simpa using hkind), ih, List.filterMap_cons_none hrow]

theorem exists_getElem?_of_row
    {j : Nat}
    (h : (ofModels language models kind).rows[j]? = some cells) :
    ∃ e, (models.ofKind kind)[j]? = some e ∧ Row.toCells? e.1 e.2 = some (kind, cells) := by
  have hplace := congrArg (·[j]?) (map_toCells?_ofKind language models kind)
  simp only [List.getElem?_map, h, Option.map_some, Option.map_eq_some_iff] at hplace
  exact hplace

theorem exists_row_of_getElem?
    {j : Nat}
    (h : (models.ofKind kind)[j]? = some e) :
    ∃ cells, (ofModels language models kind).rows[j]? = some cells ∧
      Row.toCells? e.1 e.2 = some (kind, cells) := by
  have hplace := congrArg (·[j]?) (map_toCells?_ofKind language models kind)
  simp only [List.getElem?_map, h, Option.map_some] at hplace
  obtain ⟨cells, hcells, hrow⟩ := Option.map_eq_some_iff.1 hplace.symm
  exact ⟨cells, hcells, hrow.symm⟩

theorem length_rows_ofModels (language : String) (models : ModelMap) (kind : Kind) :
    (ofModels language models kind).rows.length = (models.ofKind kind).length := by
  have hlength := congrArg List.length (map_toCells?_ofKind language models kind)
  rw [List.length_map, List.length_map] at hlength
  exact hlength.symm

theorem pairwise_rows_ofModels (language : String) (models : ModelMap) (kind : Kind) :
    (ofModels language models kind).rows.Pairwise fun x y =>
      ∃ e f, Row.ofCells? kind x = some e ∧ Row.ofCells? kind y = some f ∧ e.1.Precedes f.1 := by
  rw [List.pairwise_iff_getElem]
  intro i j hi hj hij
  obtain ⟨e, he, hx⟩ := exists_getElem?_of_row (List.getElem?_eq_getElem hi)
  obtain ⟨f, hf, hy⟩ := exists_getElem?_of_row (List.getElem?_eq_getElem hj)
  refine ⟨e, f, Row.ofCells?_toCells? hx, Row.ofCells?_toCells? hy, ?_⟩
  obtain ⟨hi', rfl⟩ := List.getElem?_eq_some_iff.1 he
  obtain ⟨hj', rfl⟩ := List.getElem?_eq_some_iff.1 hf
  exact List.pairwise_iff_getElem.1 (models.pairwise_ofKind kind) i j hi' hj' hij

end Block

namespace DataExtension

variable {language : String} {models : ModelMap} {e : Entry}

/-! ## One pass over the map -/

/-- The blocks of all kinds, with given rows for each kind. -/
def blocksWith (language : String) (rows : Kind → List (List Yaml.Value)) : List Block :=
  Kind.all.map fun kind => ⟨languagePack language, kind.predicate, rows kind⟩

/-- Puts the row of an entry at the end of the block at the place of its kind. -/
def addRow (blocks : List Block) (e : Entry) : List Block :=
  match Row.toCells? e.1 e.2 with
  | some (kind, cells) =>
    blocks.modify kind.ctorIdx fun b => { b with rows := b.rows ++ [cells] }
  | none => blocks

theorem addRow_blocksWith (rows : Kind → List (List Yaml.Value)) (e : Entry) :
    addRow (blocksWith language rows) e =
      blocksWith language fun kind => rows kind ++ (Block.row? kind e).toList := by
  unfold addRow
  cases hcells : Row.toCells? e.1 e.2 with
  | none =>
      have hrow : ∀ kind, Block.row? kind e = none := by
        intro kind
        rw [Block.row?, hcells]
      simp [hrow]
  | some row =>
      obtain ⟨place, cells⟩ := row
      have hrow : ∀ kind, Block.row? kind e = if place = kind then some cells else none := by
        intro kind
        rw [Block.row?, hcells]
      -- only the block at the place of the kind gets the row, which is seen kind by kind
      cases place with
      | summary | sink | source | neutral =>
          simp only [blocksWith, Kind.all, Vocabulary.all, List.map_cons, List.map_nil, hrow,
            reduceCtorEq, ↓reduceIte, Option.toList_none, Option.toList_some, List.append_nil]
          rfl

theorem foldl_addRow (entries : List Entry) (rows : Kind → List (List Yaml.Value)) :
    entries.foldl addRow (blocksWith language rows) =
      blocksWith language fun kind => rows kind ++ entries.filterMap (Block.row? kind) := by
  -- on the entries that are left, from blocks with any rows, since each entry adds to them
  induction entries generalizing rows with
  | nil => simp
  | cons e rest ih =>
      rw [List.foldl_cons, addRow_blocksWith, ih]
      congr 1
      funext kind
      rw [List.append_assoc, List.filterMap_cons]
      cases Block.row? kind e with
      | none => rfl
      | some cells => rfl

theorem blocks_ofModels_eq_foldl (language : String) (models : ModelMap) :
    (ofModels language models).blocks =
      models.toList.foldl addRow (blocksWith language fun _ => []) := by
  rw [foldl_addRow]
  rfl

/-! ## The place of a row -/

/-- The row of an entry is the one in place `j` of the block in place `i`. -/
def HasRowAt (d : DataExtension) (i j : Nat) (e : Entry) : Prop :=
  ∃ b cells kind, d.blocks[i]? = some b ∧ b.rows[j]? = some cells ∧
    Row.toCells? e.1 e.2 = some (kind, cells)

/-- The row of an entry stands where the entry stands among those of its kind. -/
theorem hasRowAt_ofModels_iff
    {i j : Nat}
    (he : e ∈ models.toList) :
    (ofModels language models).HasRowAt i j e ↔
      ∃ kind, Kind.all[i]? = some kind ∧ (models.ofKind kind)[j]? = some e := by
  have hblock : ∀ b, (ofModels language models).blocks[i]? = some b ↔
      ∃ kind, Kind.all[i]? = some kind ∧ Block.ofModels language models kind = b := by
    intro b
    rw [ofModels, List.getElem?_map, Option.map_eq_some_iff]
  constructor
  · rintro ⟨b, cells, kind', hb, hcells, hrow⟩
    obtain ⟨kind, hkind, rfl⟩ := (hblock b).1 hb
    obtain ⟨f, hf, hwritten⟩ := Block.exists_getElem?_of_row hcells
    have hmem : f ∈ models.toList := (ModelMap.mem_ofKind.1 (List.mem_of_getElem? hf)).1
    have hsame : e = f :=
      ModelMap.eq_of_fst_eq he hmem (Row.signature_eq_of_toCells? hrow hwritten)
    rw [hsame]
    exact ⟨kind, hkind, hf⟩
  · rintro ⟨kind, hkind, hj⟩
    obtain ⟨cells, hcells, hrow⟩ := Block.exists_row_of_getElem? hj
    exact ⟨_, cells, kind, (hblock _).2 ⟨kind, hkind, rfl⟩, hcells, hrow⟩

theorem existsUnique_hasRowAt
    (he : e ∈ models.toList) (hmodel : e.2 ≠ .unmodeled) :
    ∃! place : Nat × Nat, (ofModels language models).HasRowAt place.1 place.2 e := by
  have hnodup : Kind.all.Nodup := by decide
  obtain ⟨kind, hkind⟩ : ∃ kind, e.2.kind? = some kind := by
    cases hm : e.2 with
    | unmodeled => exact absurd hm hmodel
    | summary | sink | source | neutral => exact ⟨_, rfl⟩
  obtain ⟨i, hi⟩ := List.mem_iff_getElem?.1 (show kind ∈ Kind.all by cases kind <;> decide)
  obtain ⟨j, hj⟩ := List.mem_iff_getElem?.1 (ModelMap.mem_ofKind.2 ⟨he, hkind⟩)
  refine ⟨(i, j), (hasRowAt_ofModels_iff he).2 ⟨kind, hi, hj⟩, ?_⟩
  rintro ⟨i', j'⟩ hplace
  obtain ⟨kind', hi', hj'⟩ := (hasRowAt_ofModels_iff he).1 hplace
  have hsame : kind' = kind := by
    have hkind' := (ModelMap.mem_ofKind.1 (List.mem_of_getElem? hj')).2
    rw [hkind] at hkind'
    exact (Option.some.inj hkind').symm
  subst hsame
  have hi'' : i' = i :=
    (List.getElem?_inj (List.getElem?_eq_some_iff.1 hi').1 hnodup).1 (hi'.trans hi.symm)
  have hj'' : j' = j :=
    (List.getElem?_inj (List.getElem?_eq_some_iff.1 hj').1 (models.nodup_ofKind kind')).1
      (hj'.trans hj.symm)
  rw [hi'', hj'']

/-- What a document of a map looks like. -/
structure LaidOut (language : String) (models : ModelMap) (d : DataExtension) : Prop where
  /-- One pass over the map fills the blocks. -/
  single_pass : d.blocks = models.toList.foldl addRow (blocksWith language fun _ => [])
  predicates : d.blocks.map Block.predicate =
    ["summaryModel", "sinkModel", "sourceModel", "neutralModel"]
  packs : ∀ b ∈ d.blocks, b.pack = "codeql/" ++ language ++ "-all"
  rows : ∀ b ∈ d.blocks, ∀ kind : Kind, b.predicate = kind.predicate →
    ((models.ofKind kind).map fun e => Row.toCells? e.1 e.2) =
      b.rows.map fun cells => some (kind, cells)
  ascending : ∀ b ∈ d.blocks, ∀ kind : Kind, b.predicate = kind.predicate →
    b.rows.Pairwise fun x y =>
      ∃ e f, Row.ofCells? kind x = some e ∧ Row.ofCells? kind y = some f ∧ e.1.Precedes f.1
  once : ∀ e ∈ models.toList, e.2 ≠ .unmodeled →
    ∃! place : Nat × Nat, d.HasRowAt place.1 place.2 e
  total : (d.blocks.map fun b => b.rows.length).sum +
    (models.toList.filter fun e => e.2 = .unmodeled).length = models.size

theorem ofModels_laidOut (language : String) (models : ModelMap) :
    LaidOut language models (ofModels language models) := by
  have hblock : ∀ b ∈ (ofModels language models).blocks, ∀ kind : Kind,
      b.predicate = kind.predicate → b = Block.ofModels language models kind := by
    intro b hb kind hpredicate
    obtain ⟨kind', -, rfl⟩ := List.mem_map.1 hb
    have hkind : some kind' = some kind := by
      rw [← Kind.ofPredicate?_predicate kind', ← Kind.ofPredicate?_predicate kind]
      exact congrArg Kind.ofPredicate? hpredicate
    rw [Option.some.inj hkind]
  exact
    { single_pass := blocks_ofModels_eq_foldl language models
      predicates := rfl
      packs := by
        intro b hb
        obtain ⟨kind, -, rfl⟩ := List.mem_map.1 hb
        rfl
      rows := by
        intro b hb kind hpredicate
        rw [hblock b hb kind hpredicate]
        exact Block.map_toCells?_ofKind language models kind
      ascending := by
        intro b hb kind hpredicate
        rw [hblock b hb kind hpredicate]
        exact Block.pairwise_rows_ofModels language models kind
      once := by
        intro e he hmodel
        exact existsUnique_hasRowAt he hmodel
      total := by
        rw [ofModels, List.map_map, ← models.sum_length_ofKind]
        congr 2
        apply List.map_congr_left
        intro kind _
        exact Block.length_rows_ofModels language models kind }

end DataExtension

end LibraryModels
