import LibraryModels.Proofs.Json.Decode
import LibraryModels.Proofs.Json.Source
import LibraryModels.Proofs.Results.Cells

/-!
# Tables read from objects

The tuples of a table are read one by one and the items of each tuple one by one, so every cell
keeps its place.  All of them have to stand for cells: one item that stands for none, or has no
value because it is nested too deep or not well-formed, refuses the whole text.
-/

namespace LibraryModels

open Json (Error Source Value)

namespace Table

variable {depth : Nat} {s : String} {t : Table} {rows : List (List Source)}
variable {before after : List (Option String × Source)}

/-! ## Members -/

/-- The columns and tuples that members have given so far. -/
abbrev Fields : Type :=
  Option (List Column) × Option (List (List Cell))

/-- Takes one member. -/
def Fields.add (depth : Nat) (fields : Fields) (key : String) (item : Source) :
    Except Error Fields :=
  match key with
  | "columns" => do
    return (← Json.setOnce key fields.1 (ResultSet.columnsOfSource depth item), fields.2)
  | "tuples" => do
    return (fields.1, ← Json.setOnce key fields.2 (tuplesOfSource depth item))
  | _ => .ok fields

theorem ofSource_object (depth : Nat) (members : List (Option String × Source)) (closed : Bool) :
    ofSource (depth + 1) (.object members closed) =
      (fun fields => ⟨fields.1.getD [], fields.2.getD []⟩) <$>
        Source.foldMembers (Fields.add depth) (none, none) members closed := by
  rw [map_eq_pure_bind]
  rfl

theorem Fields.add_tuples (depth : Nat) (item : Source) :
    Fields.add depth (none, none) "tuples" item =
      (fun tuples => (none, some tuples)) <$> tuplesOfSource depth item := by
  dsimp only [add]
  cases tuplesOfSource depth item with
  | error e => rfl
  | ok tuples => rfl

/-- A member has a name, which is not that of a part of a table. -/
def IsOther (member : Option String × Source) : Prop :=
  ∃ key, member.1 = some key ∧ key ∉ ["columns", "tuples"]

theorem IsOther.idle
    {member : Option String × Source}
    (h : IsOther member) :
    Source.Idle (Fields.add depth) member := by
  obtain ⟨key, hkey, hother⟩ := h
  simp only [List.mem_cons, List.not_mem_nil, or_false, not_or] at hother
  refine ⟨key, hkey, fun fields => ?_⟩
  unfold Fields.add
  split
  · exact absurd rfl hother.1
  · exact absurd rfl hother.2
  · rfl

/-- With nothing but tuples given, these are the table. -/
theorem ofSource_tuples
    (tuples : Source)
    (hbefore : ∀ member ∈ before, IsOther member) (hafter : ∀ member ∈ after, IsOther member) :
    ofSource (depth + 1) (.object (before ++ (some "tuples", tuples) :: after) true) =
      mk [] <$> tuplesOfSource depth tuples := by
  have hidle : ∀ member ∈ after, Source.Idle (Fields.add depth) member :=
    fun member hmember => (hafter member hmember).idle
  rw [ofSource_object, Source.foldMembers_append_of_idle fun member hmember =>
    (hbefore member hmember).idle, Source.foldMembers_cons, Fields.add_tuples]
  simp only [Source.foldMembers_of_idle hidle]
  cases tuplesOfSource depth tuples with
  | error e => rfl
  | ok tuples => rfl

/-! ## Tuples -/

/-- How deep the value of a cell may be nested: it stands in a tuple, in the list of an object. -/
def cellDepth : Nat :=
  Json.nestingLimit - 3

/-- An item has a value, which stands for a cell. -/
def IsCell (item : Source) (c : Cell) : Prop :=
  ∃ v, item.toValue cellDepth = .ok v ∧ Cell.StandsFor v c

theorem tuplesOfSource_eq_ok_iff
    {tuples : List (List Cell)} :
    tuplesOfSource (cellDepth + 2) (.array (rows.map fun row => .array row true) true) =
        .ok tuples ↔
      List.Forall₂ (List.Forall₂ IsCell) rows tuples := by
  have hrow (row : List Source) (tuple : List Cell) :
      (Source.array row true).asList (cellDepth + 1) Cell.ofSource = .ok tuple ↔
        List.Forall₂ IsCell row tuple := by
    simp only [Source.asList_eq_ok_iff, Cell.ofSource_eq_ok_iff, true_and]
    rfl
  rw [tuplesOfSource, Source.asList_eq_ok_iff, List.forall₂_map_left_iff]
  simp only [hrow, true_and]

theorem exists_tuples_iff :
    (∃ tuples, List.Forall₂ (List.Forall₂ IsCell) rows tuples) ↔
      ∀ row ∈ rows, ∀ item ∈ row, ∃ c, IsCell item c := by
  simp only [exists_forall₂_iff]

/-- Only an item that is a text has one. -/
theorem IsCell.text?_eq_some_iff
    {item : Source} {c : Cell} {text : String}
    (h : IsCell item c) :
    c.text? = some text ↔ item = .string (some text) := by
  obtain ⟨v, hv, hc⟩ := h
  rw [hc.text?_eq_some_iff, ← Source.toValue_eq_string_iff, hv, Except.ok.injEq]

/-- The negative zero is no integer, whether or not it has a fraction, and so no identifier. -/
example : ¬∃ c, IsCell (.array [.null, .numeral ⟨true, ['0'], [], none⟩] true) c := by
  rintro ⟨c, hc⟩
  have hread : Cell.ofSource cellDepth (.array [.null, .numeral ⟨true, ['0'], [], none⟩] true) =
      .error (.fault (.noAlternative "CellValue")) :=
    rfl
  cases hread.symm.trans (Cell.ofSource_eq_ok_iff.2 hc)

/-! ## Texts -/

/--
Where nothing but tuples is given, a text is read exactly if every item of every tuple stands for a
cell, and then the table has these cells in these places.  An item is the text of its cell if it is
a text, and no other cell has one.
-/
theorem ofJsonText_tuples
    (h : Source.ofText s =
      (.object
        (before ++ (some "tuples", .array (rows.map fun row => .array row true) true) :: after)
        true, true))
    (hothers : ∀ member ∈ before ++ after, IsOther member) :
    ((∃ t, ofJsonText s = .ok t) ↔ ∀ row ∈ rows, ∀ item ∈ row, ∃ c, IsCell item c) ∧
      (∀ t, ofJsonText s = .ok t ↔
        t.columns = [] ∧ List.Forall₂ (List.Forall₂ IsCell) rows t.tuples) ∧
      (∀ item c, IsCell item c → ∀ text, c.text? = some text ↔ item = .string (some text)) ∧
      ∀ row ∈ rows, ∀ item ∈ row, (∀ c, ¬IsCell item c) → ∃ e, ofJsonText s = .error e := by
  rw [List.forall_mem_append] at hothers
  have hread (t : Table) : ofJsonText s = .ok t ↔
      t.columns = [] ∧ List.Forall₂ (List.Forall₂ IsCell) rows t.tuples := by
    have hsource : ofSource Json.nestingLimit (.object (before ++
        (some "tuples", .array (rows.map fun row => .array row true) true) :: after) true) =
          mk [] <$> tuplesOfSource (cellDepth + 2)
            (.array (rows.map fun row => .array row true) true) :=
      ofSource_tuples _ hothers.1 hothers.2
    rw [ofJsonText, Source.decodeText_eq_ok_iff h, hsource, map_eq_ok]
    simp only [tuplesOfSource_eq_ok_iff, true_and]
    constructor
    · rintro ⟨tuples, htuples, rfl⟩
      exact ⟨rfl, htuples⟩
    · rintro ⟨hcolumns, htuples⟩
      exact ⟨t.tuples, htuples, by rw [← hcolumns]⟩
  have hexists : (∃ t, ofJsonText s = .ok t) ↔ ∀ row ∈ rows, ∀ item ∈ row, ∃ c, IsCell item c := by
    rw [← exists_tuples_iff]
    simp only [hread]
    constructor
    · rintro ⟨t, -, htuples⟩
      exact ⟨t.tuples, htuples⟩
    · rintro ⟨tuples, htuples⟩
      exact ⟨⟨[], tuples⟩, rfl, htuples⟩
  refine ⟨hexists, hread, fun item c hcell text => hcell.text?_eq_some_iff, ?_⟩
  intro row hrow item hitem hnone
  cases hs : ofJsonText s with
  | error e => exact ⟨e, rfl⟩
  | ok t =>
      obtain ⟨c, hc⟩ := hexists.1 ⟨t, hs⟩ row hrow item hitem
      exact absurd hc (hnone c)

/-- A label that is absent, a member that does not count, and a list with a location. -/
theorem ofJsonText_tuples_mixed :
    let s := "\x7b\"x\":false,\"tuples\":[[\"a\",-0.0,\x7b\"k\":[],\"id\":7,\"label\":null\x7d]," ++
      "[[null,null,\x7b\"b\":1,\"a\":true\x7d]]]\x7d"
    let before : List (Option String × Source) := [(some "x", .bool false)]
    let rows : List (List Source) :=
      [[.string (some "a"), .numeral ⟨true, ['0'], ['0'], none⟩,
          .object
            [(some "k", .array [] true), (some "id", .numeral ⟨false, ['7'], [], none⟩),
              (some "label", .null)] true],
        [.array
          [.null, .null,
            .object
              [(some "b", .numeral ⟨false, ['1'], [], none⟩), (some "a", .bool true)] true] true]]
    Source.ofText s =
        (.object
          (before ++ (some "tuples", .array (rows.map fun row => .array row true) true) :: [])
          true, true) ∧
      (∀ member ∈ before ++ [], IsOther member) ∧
      ofJsonText s = .ok
        ⟨[],
          [[.text "a", .number (.float (.zero true)), .entity ⟨none, some 7, none⟩],
            [.entity ⟨none, none,
              some (.object [("a", .bool true), ("b", .number (.integer 1))])⟩]]⟩ := by
  intro s before rows
  let v : Value :=
    .object
      [("x", .bool false),
        ("tuples",
          .array
            [.array
                [.string "a", .number (.float (.zero true)),
                  .object [("k", .array []), ("id", .number (.integer 7)), ("label", .null)]],
              .array
                [.array
                  [.null, .null,
                    .object [("b", .number (.integer 1)), ("a", .bool true)]]]])]
  have htext : Source.ofText s =
      (.object
        (before ++ (some "tuples", .array (rows.map fun row => .array row true) true) :: [])
        true, true) := by
    have hs : s = v.text := by decide +kernel
    rw [hs, Source.ofText_text (by simp [v])]
    rfl
  have hothers : ∀ member ∈ before ++ [], IsOther member := by
    simp only [before, List.append_nil, List.forall_mem_singleton]
    exact ⟨"x", rfl, by decide⟩
  refine ⟨htext, hothers, ((ofJsonText_tuples htext hothers).2.1 _).2 ⟨rfl, ?_⟩⟩
  have hzero : Json.Numeral.value? ⟨true, ['0'], ['0'], none⟩ = some (.float (.zero true)) := by
    decide +kernel
  have hid : Entity.Says Entity.IsId [.number (.integer 7)] (some 7) := .given ⟨rfl, by decide⟩
  have hurl : Entity.Says Entity.IsUrl
      [.object [("b", .number (.integer 1)), ("a", .bool true)]]
      (some (.object [("a", .bool true), ("b", .number (.integer 1))])) :=
    .given ⟨nofun, rfl⟩
  exact
    .cons
      (.cons ⟨_, rfl, .text "a"⟩
        (.cons ⟨_, by rw [Source.toValue, hzero], .number _⟩
          (.cons ⟨_, rfl, .object ⟨.absent, hid, .missing⟩⟩ .nil)))
      (.cons (.cons ⟨_, rfl, .list (by decide) ⟨.absent, .absent, hurl⟩⟩ .nil) .nil)

end Table

end LibraryModels
