import LibraryModels.Proofs.Results.Ordered
import LibraryModels.Proofs.Results.Reading

/-!
# Results and their JSON text

A description of results is read back from its text.  So is a table that was read, as long as all
numerals of its text are integers: a location that was read is present, its members are in order,
and it stands no deeper in the written text than it did in the text before.  A table that was not
read may be written as the text of another one, since a location may be the absent value.
-/

namespace LibraryModels

open Json (Error Source Value Integral Ordered Stable)

/-! ## Lists of written values -/

namespace Json

variable {α : Type} {depth : Nat} {as : List α}

theorem itemSources_eq_map (items : List Value) :
    itemSources items = items.map Value.source := by
  induction items with
  | nil => rw [itemSources, List.map_nil]
  | cons item rest ih => rw [itemSources, ih, List.map_cons]

/-- A list whose items are read back is read back. -/
theorem asList_written
    {decode : Nat → Source → Except Error α} {written : α → Value}
    (h : ∀ a ∈ as, decode depth (written a).source = .ok a) :
    (Value.array (as.map written)).source.asList (depth + 1) decode = .ok as := by
  rw [Value.source, itemSources_eq_map, List.map_map, Source.asList_eq_ok_iff,
    List.forall₂_map_left_iff, List.forall₂_same]
  exact ⟨rfl, h⟩

theorem integral_map
    {written : α → Value}
    (h : ∀ a ∈ as, Integral (written a)) :
    Integral (.array (as.map written)) :=
  .array (List.forall_mem_map.2 h)

theorem asNatural_ofInteger
    {n : Nat}
    (h : (n : Int) ≤ Number.maxInteger) :
    (Value.number (.integer n)).source.asNatural = .ok n := by
  have hmin : Number.minInteger ≤ (n : Int) := by
    unfold Number.minInteger
    omega
  rw [Value.source, Source.asNatural]
  simp only [Numeral.value?_ofInteger hmin h]
  rfl

end Json

/-! ## Descriptions -/

namespace Column

theorem integral_toJson (c : Column) : Integral c.toJson := by
  obtain ⟨_ | name, kind⟩ := c
  · simp [toJson]
  · simp [toJson]

theorem ofSource_toJson (depth : Nat) (c : Column) :
    ofSource (depth + 1) c.toJson.source = .ok c := by
  obtain ⟨_ | name, kind⟩ := c
  · rfl
  · rfl

end Column

namespace ResultSet

variable {r : ResultSet} {depth : Nat}

theorem integral_toJson (r : ResultSet) : Integral r.toJson := by
  apply Integral.object
  simp only [List.forall_mem_cons]
  exact ⟨.string _, .integer _, Json.integral_map fun c _ => c.integral_toJson, nofun⟩

theorem columnsOfSource_written (columns : List Column) :
    columnsOfSource (depth + 2) (Value.array (columns.map Column.toJson)).source = .ok columns :=
  Json.asList_written fun c _ => c.ofSource_toJson depth

theorem ofSource_toJson
    (h : (r.rows : Int) ≤ Number.maxInteger) :
    ofSource (depth + 3) r.toJson.source = .ok r := by
  have hcolumns : columnsOfSource (depth + 2) (Value.array (r.columns.map Column.toJson)).source =
      .ok r.columns :=
    columnsOfSource_written r.columns
  have hrows := Json.asNatural_ofInteger h
  rw [toJson, Value.source, Json.memberSources_eq_map, ofSource, Json.enter]
  simp only [List.map_cons, List.map_nil, Source.foldMembers_cons]
  simp only [hrows, hcolumns]
  rfl

end ResultSet

namespace ResultsInfo

variable {r : ResultsInfo}

theorem integral_toJson (r : ResultsInfo) : Integral r.toJson := by
  apply Integral.object
  rw [List.forall_mem_singleton]
  exact Json.integral_map fun set _ => set.integral_toJson

theorem ofSource_toJson
    {depth : Nat}
    (h : ∀ set ∈ r.resultSets, (set.rows : Int) ≤ Number.maxInteger) :
    ofSource (depth + 5) r.toJson.source = .ok r := by
  have hsets : (Value.array (r.resultSets.map ResultSet.toJson)).source.asList (depth + 4)
      ResultSet.ofSource = .ok r.resultSets :=
    Json.asList_written fun set hset => ResultSet.ofSource_toJson (h set hset)
  rw [toJson, Value.source, Json.memberSources_eq_map, ofSource, Json.enter, List.map_cons,
    List.map_nil, Source.foldMembers_cons, if_pos rfl]
  simp only [hsets]
  rfl

/-- A description is read back from its text. -/
theorem ofJsonText_text
    (h : ∀ set ∈ r.resultSets, (set.rows : Int) ≤ Number.maxInteger) :
    ofJsonText r.toJson.text = .ok r :=
  (Source.decodeText_eq_ok_iff (Source.ofText_text r.integral_toJson)).2 ⟨rfl, ofSource_toJson h⟩

end ResultsInfo

/-! ## Entities -/

namespace Entity

/--
What is known of an entity that was read: its identifier is in range, and its location is present,
has its members in order and is nested at most so deep.
-/
structure Settled (depth : Nat) (e : Entity) : Prop where
  id : ∀ n, e.id = some n → Number.minInteger ≤ n ∧ n ≤ Number.maxSigned
  url : ∀ v, e.url = some v → v ≠ .null ∧ Ordered v ∧ Stable depth v

variable {depth : Nat} {e : Entity} {labels ids urls : List Value}

theorem settled_of_isGiven
    (h : e.IsGiven labels ids urls) (hurls : ∀ v ∈ urls, Stable depth v) :
    e.Settled depth where
  id n hn := by
    have hid := h.id
    rw [hn] at hid
    cases hid with
    | given hmeans => exact hmeans.2
  url v hv := by
    have hurl := h.url
    rw [hv] at hurl
    cases hurl with
    | given hmeans =>
        obtain ⟨hpresent, rfl⟩ := hmeans
        rw [List.forall_mem_singleton] at hurls
        exact ⟨Json.orderedMembers_ne_null hpresent, Json.ordered_orderedMembers _,
          Json.stable_orderedMembers hurls⟩

theorem says_toList
    {α : Type} {Means : Value → α → Prop} {written : α → Value} {o : Option α}
    (h : ∀ a, o = some a → Means (written a) a) :
    Says Means (o.toList.map written) o := by
  cases o with
  | none => exact .missing
  | some a => exact .given (h a rfl)

theorem valuesOf_toList
    {α : Type} (key name : String) (written : α → Value) (o : Option α) :
    valuesOf key (o.toList.map fun a => (name, written a)) =
      if name = key then o.toList.map written else [] := by
  cases o with
  | none => simp [valuesOf]
  | some a => exact valuesOf_singleton key name (written a)

/-- The members of a written entity. -/
def members (e : Entity) : List (String × Value) :=
  (e.label.toList.map fun s => ("label", .string s)) ++
    (e.id.toList.map fun n => ("id", .number (.integer n))) ++
    (e.url.toList.map fun v => ("url", v))

theorem isGiven_members
    (h : e.Settled depth) :
    e.IsGiven (valuesOf "label" e.members) (valuesOf "id" e.members)
      (valuesOf "url" e.members) := by
  have hurl (key : String) := valuesOf_toList key "url" (fun v => v) e.url
  simp only [members, valuesOf_append, valuesOf_toList, hurl, String.reduceEq, if_true, if_false,
    List.nil_append, List.append_nil]
  exact
    { label := says_toList fun _ _ => rfl
      id := says_toList fun n hn => ⟨rfl, h.id n hn⟩
      url := says_toList fun v hv =>
        ⟨(h.url v hv).1, (Json.orderedMembers_of_ordered (h.url v hv).2.1).symm⟩ }

theorem stable_toJson
    (h : e.Settled depth) :
    Stable (depth + 1) e.toJson := by
  have hmembers : ∀ member ∈ e.members, Stable depth member.2 := by
    simp only [members, List.forall_mem_append, List.forall_mem_map, Option.mem_toList]
    refine ⟨⟨fun s _ => .string s, fun n hn => ?_⟩, fun v hv => (h.url v hv).2.2⟩
    obtain ⟨hmin, hmax⟩ := h.id n hn
    exact .number (.integer hmin (Int.le_trans hmax (by decide)))
  exact .object hmembers

end Entity

/-! ## Cells -/

namespace Cell

/-- What is known of a cell that was read. -/
inductive Settled : Nat → Cell → Prop where
  | text {depth : Nat} (s : String) : Settled depth (.text s)
  | boolean {depth : Nat} (b : Bool) : Settled depth (.boolean b)
  | number {depth : Nat} {n : Number} (h : n.Stable) : Settled depth (.number n)
  | entity {depth : Nat} {e : Entity} (h : e.Settled depth) : Settled (depth + 1) (.entity e)

variable {depth : Nat} {v : Value} {c : Cell}

theorem StandsFor.settled
    (h : StandsFor v c) (hv : Stable depth v) :
    c.Settled depth := by
  cases h with
  | text s => exact .text s
  | boolean b => exact .boolean b
  | number n =>
      cases hv with
      | number hn => exact .number hn
  | object h =>
      cases hv with
      | object hmembers =>
          refine .entity (Entity.settled_of_isGiven h fun v hv => ?_)
          exact hmembers ("url", v) (Entity.mem_valuesOf.1 hv)
  | list _ h =>
      cases hv with
      | array hitems =>
          refine .entity (Entity.settled_of_isGiven h fun v hv => ?_)
          exact hitems v (List.mem_of_mem_drop (List.mem_of_mem_take hv))

theorem Settled.stable_toJson
    (h : c.Settled depth) :
    Stable depth c.toJson := by
  cases h with
  | text s => exact .string s
  | boolean b => exact .bool b
  | number h => exact .number h
  | entity h => exact Entity.stable_toJson h

theorem Settled.standsFor_toJson
    (h : c.Settled depth) :
    StandsFor c.toJson c := by
  cases h with
  | text s => exact .text s
  | boolean b => exact .boolean b
  | number h => exact .number _
  | entity h => exact .object (Entity.isGiven_members h)

/-- A cell that was read is read back. -/
theorem Settled.ofSource_toJson
    (h : c.Settled depth) :
    ofSource depth c.toJson.source = .ok c :=
  ofSource_eq_ok_iff.2 ⟨c.toJson, Source.toValue_source h.stable_toJson, h.standsFor_toJson⟩

end Cell

/-! ## Tables -/

namespace Table

variable {depth : Nat} {s : String} {t : Table}

/-- What is known of tuples that were read. -/
def TuplesSettled (tuples : List (List Cell)) : Prop :=
  ∀ tuple ∈ tuples, ∀ c ∈ tuple, c.Settled cellDepth

/-- What is known of a table that was read. -/
def Settled (t : Table) : Prop :=
  TuplesSettled t.tuples

theorem tuplesSettled_of_tuplesOfSource
    {item : Source} {tuples : List (List Cell)}
    (hwhole : item.isWhole = true) (h : tuplesOfSource (cellDepth + 2) item = .ok tuples) :
    TuplesSettled tuples := by
  obtain ⟨rows, inner, rfl, hinner, hrows⟩ := Source.exists_of_asList_eq_ok h
  cases hinner
  intro tuple htuple c hc
  obtain ⟨row, hrow, hcells⟩ := hrows tuple htuple
  obtain ⟨items, inner, rfl, hinner, hitems⟩ := Source.exists_of_asList_eq_ok hcells
  cases hinner
  obtain ⟨item, hitem, hcell⟩ := hitems c hc
  obtain ⟨v, hv, hstands⟩ := Cell.ofSource_eq_ok_iff.1 hcell
  have hwholeRow := Source.itemsWhole_iff.1 hwhole _ hrow
  have hwholeItem := Source.itemsWhole_iff.1 hwholeRow item hitem
  exact hstands.settled (Source.stable_of_toValue item hwholeItem hv)

theorem tuplesSettled_nil : TuplesSettled [] :=
  fun _ h => nomatch h

/-- What is known of the tuples that members have given, if they have. -/
def Fields.Settled (fields : Fields) : Prop :=
  ∀ tuples ∈ fields.2, TuplesSettled tuples

theorem Fields.Settled.add
    {fields next : Fields} {key : String} {item : Source}
    (hfields : fields.Settled) (hwhole : item.isWhole = true)
    (h : Fields.add (cellDepth + 2) fields key item = .ok next) :
    next.Settled := by
  unfold Fields.add at h
  split at h
  · obtain ⟨columns, _, h⟩ := bind_eq_ok.1 h
    cases h
    exact hfields
  · obtain ⟨given, hgiven, h⟩ := bind_eq_ok.1 h
    cases h
    obtain ⟨-, tuples, htuples, rfl⟩ := Json.setOnce_eq_ok_iff.1 hgiven
    rintro _ ⟨⟩
    exact tuplesSettled_of_tuplesOfSource hwhole htuples
  · cases h
    exact hfields

theorem ofSource_noItems (depth : Nat) (closed : Bool) :
    ofSource (depth + 1) (.array [] closed) = Json.requireClosed closed ⟨[], []⟩ := by
  rcases closed with _ | _ <;> rfl

theorem ofSource_oneItem (depth : Nat) (columns : Source) (closed : Bool) :
    ofSource (depth + 1) (.array [columns] closed) =
      ResultSet.columnsOfSource depth columns >>= fun columns =>
        Json.requireClosed closed ⟨columns, []⟩ := by
  rcases closed with _ | _ <;> rfl

theorem ofSource_items (depth : Nat) (columns tuples : Source) (rest : List Source)
    (closed : Bool) :
    ofSource (depth + 1) (.array (columns :: tuples :: rest) closed) =
      ResultSet.columnsOfSource depth columns >>= fun columns =>
        tuplesOfSource depth tuples >>= fun tuples =>
          Source.requireEnd closed rest ⟨columns, tuples⟩ :=
  rfl

theorem settled_of_ofSource
    {source : Source}
    (hwhole : source.isWhole = true) (h : ofSource (cellDepth + 3) source = .ok t) :
    t.Settled := by
  match source with
  | .object members closed =>
      rw [ofSource_object, map_eq_ok] at h
      obtain ⟨fields, hfields, rfl⟩ := h
      have hsettled : fields.Settled := by
        have hstart : Fields.Settled (none, none) := fun _ h => nomatch h
        refine Source.foldMembers_induction hstart ?_ hfields
        intro member hmember state key next hstate hnext
        exact hstate.add (Source.membersWhole_iff.1 hwhole member hmember) hnext
      show TuplesSettled (fields.2.getD [])
      cases htuples : fields.2 with
      | none => exact tuplesSettled_nil
      | some tuples => exact hsettled tuples htuples
  | .array items closed =>
      match items with
      | [] =>
          rw [ofSource_noItems] at h
          obtain ⟨-, rfl⟩ := Json.requireClosed_eq_ok_iff.1 h
          exact tuplesSettled_nil
      | [columns] =>
          rw [ofSource_oneItem] at h
          obtain ⟨columns, -, h⟩ := bind_eq_ok.1 h
          obtain ⟨-, rfl⟩ := Json.requireClosed_eq_ok_iff.1 h
          exact tuplesSettled_nil
      | columns :: tuples :: rest =>
          rw [ofSource_items] at h
          obtain ⟨columns, -, h⟩ := bind_eq_ok.1 h
          obtain ⟨_, htuples, h⟩ := bind_eq_ok.1 h
          obtain ⟨-, rfl⟩ := Json.requireClosed_eq_ok_iff.1 h
          have hwholeItems := Source.itemsWhole_iff.1 hwhole
          have htuplesWhole := hwholeItems tuples (List.mem_cons_of_mem _ List.mem_cons_self)
          exact tuplesSettled_of_tuplesOfSource htuplesWhole htuples
  | .null | .bool _ | .numeral _ | .string _ | .broken =>
      exact absurd h (Source.mismatch_ne_ok _ _ _)

theorem settled_of_ofJsonText
    (h : ofJsonText s = .ok t) (hwhole : (Source.ofText s).1.isWhole = true) :
    t.Settled :=
  settled_of_ofSource hwhole ((Source.decodeText_eq_ok_iff rfl).1 h).2

theorem Settled.integral_toJson
    (h : t.Settled) :
    Integral t.toJson := by
  apply Integral.object
  simp only [List.forall_mem_cons]
  refine ⟨Json.integral_map fun c _ => c.integral_toJson, ?_, nofun⟩
  exact Json.integral_map fun tuple htuple =>
    Json.integral_map fun c hc => (h tuple htuple c hc).stable_toJson.integral

theorem Settled.ofSource_toJson
    (h : t.Settled) :
    ofSource (cellDepth + 3) t.toJson.source = .ok t := by
  have hcolumns : ResultSet.columnsOfSource (cellDepth + 2)
      (Value.array (t.columns.map Column.toJson)).source = .ok t.columns :=
    ResultSet.columnsOfSource_written t.columns
  have htuples : tuplesOfSource (cellDepth + 2)
      (Value.array (t.tuples.map fun tuple => .array (tuple.map Cell.toJson))).source =
        .ok t.tuples :=
    Json.asList_written fun tuple htuple =>
      Json.asList_written fun c hc => (h tuple htuple c hc).ofSource_toJson
  rw [toJson, Value.source, Json.memberSources_eq_map, ofSource_object]
  simp only [List.map_cons, List.map_nil, Source.foldMembers_cons, Fields.add, hcolumns, htuples]
  rfl

theorem Settled.ofJsonText_text
    (h : t.Settled) :
    ofJsonText t.toJson.text = .ok t :=
  (Source.decodeText_eq_ok_iff (Source.ofText_text h.integral_toJson)).2 ⟨rfl, h.ofSource_toJson⟩

/-- A location that is the absent value is not there any more once it was written. -/
example :
    let t : Table := ⟨[], [[.entity ⟨none, none, some .null⟩]]⟩
    ofJsonText t.toJson.text = .ok ⟨[], [[.entity ⟨none, none, none⟩]]⟩ := by
  intro t
  have hintegral : Integral t.toJson := by
    simp [t, toJson, Cell.toJson, Entity.toJson]
  exact (Source.decodeText_eq_ok_iff (Source.ofText_text hintegral)).2 ⟨rfl, rfl⟩

end Table

/-! ## Texts -/

/--
Descriptions of results are read back from their texts, and so are tables that were read from texts
in which all numerals are integers that fit 64 bits; what is read back has the same text again.  A
part of an entity that is given as absent is read as one that is left out.
-/
theorem results_read_back :
    (∀ r : ResultsInfo, (∀ set ∈ r.resultSets, (set.rows : Int) ≤ Number.maxInteger) →
      ResultsInfo.ofJsonText r.toJson.text = .ok r ∧
        ∀ r', ResultsInfo.ofJsonText r.toJson.text = .ok r' →
          r' = r ∧ r'.toJson.text = r.toJson.text) ∧
      (∀ s t, Table.ofJsonText s = .ok t → (Source.ofText s).1.isWhole = true →
        Table.ofJsonText t.toJson.text = .ok t ∧
          ∀ t', Table.ofJsonText t.toJson.text = .ok t' →
            t' = t ∧ t'.toJson.text = t.toJson.text) ∧
      (∀ key ∈ ["label", "id", "url"], ∀ before after : List (String × Value),
        (∀ e ∈ before ++ after, e.1 ≠ key) →
          Cell.ofValue? (.object (before ++ (key, .null) :: after)) =
            Cell.ofValue? (.object (before ++ after))) ∧
      ∀ items : List Value, items.length < 3 →
        Cell.ofValue? (.array (items ++ [.null])) = Cell.ofValue? (.array items) := by
  refine ⟨fun r hrows => ?_, fun s t hread hwhole => ?_, ?_, ?_⟩
  · have hback := ResultsInfo.ofJsonText_text hrows
    refine ⟨hback, fun r' hr' => ?_⟩
    cases hback.symm.trans hr'
    exact ⟨rfl, rfl⟩
  · have hback := (Table.settled_of_ofJsonText hread hwhole).ofJsonText_text
    refine ⟨hback, fun t' ht' => ?_⟩
    cases hback.symm.trans ht'
    exact ⟨rfl, rfl⟩
  · intro key hkey before after hother
    rw [Cell.ofValue?, Cell.ofValue?, Entity.ofMembers?_null hkey hother]
  · intro items hlength
    rw [Cell.ofValue?, Cell.ofValue?, Entity.ofItems?_null hlength]

/-- A column without a name, and cells that are lists, empty, and with parts that are absent. -/
theorem results_read_back_mixed :
    let r : ResultsInfo := ⟨[⟨"#select", 18446744073709551615, [⟨none, "s"⟩]⟩]⟩
    let s := "\x7b\"columns\":[\x7b\"kind\":\"e\"\x7d],\"tuples\":[[\x7b\x7d," ++
      "[null,7,\x7b\"b\":[1],\"a\":true\x7d],\x7b\"url\":null\x7d]]\x7d"
    let t : Table := ⟨[⟨none, "e"⟩],
      [[.entity ⟨none, none, none⟩,
        .entity ⟨none, some 7,
          some (.object [("a", .bool true), ("b", .array [.number (.integer 1)])])⟩,
        .entity ⟨none, none, none⟩]]⟩
    ResultsInfo.ofJsonText r.toJson.text = .ok r ∧
      Table.ofJsonText s = .ok t ∧ Table.ofJsonText t.toJson.text = .ok t ∧
      Cell.ofValue? (.object [("x", .bool true), ("url", .null)]) =
        Cell.ofValue? (.object [("x", .bool true)]) ∧
      Cell.ofValue? (.array [.null, .null]) = Cell.ofValue? (.array [.null]) := by
  intro r s t
  obtain ⟨hinfo, htable, hmember, hitem⟩ := results_read_back
  let url : Value :=
    .object [("b", .array [.number (.integer 1)]), ("a", .bool true)]
  let v : Value :=
    .object
      [("columns", .array [.object [("kind", .string "e")]]),
        ("tuples",
          .array
            [.array
              [.object [], .array [.null, .number (.integer 7), url], .object [("url", .null)]]])]
  have htext : Source.ofText s = (v.source, true) := by
    have hs : s = v.text := by decide +kernel
    rw [hs]
    exact Source.ofText_text (by simp [v, url])
  have hread : Table.ofJsonText s = .ok t := (Source.decodeText_eq_ok_iff htext).2 ⟨rfl, rfl⟩
  have hwhole : (Source.ofText s).1.isWhole = true := by
    rw [htext]
    decide +kernel
  have hrows : ∀ set ∈ r.resultSets, (set.rows : Int) ≤ Number.maxInteger := by
    rw [List.forall_mem_singleton]
    decide
  refine ⟨(hinfo r hrows).1, hread, (htable s t hread hwhole).1, ?_, hitem [.null] (by decide)⟩
  exact hmember "url" (by decide) [("x", .bool true)] [] (by simp)

end LibraryModels
