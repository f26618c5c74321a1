import LibraryModels.Proofs.Json.Nesting
import LibraryModels.Proofs.ModelMap.Json

/-!
# Maps read from objects

The members of an object are taken in the order of the text.  All of them have to be read, so one
that is not refuses the whole text, and the first such member says why.  Different names may stand
for the same signature; what the map gives for a signature is the value of the last member that
names it.  A value inside an object is read as it would be by itself, as long as it leaves room for
the object around it.
-/

namespace LibraryModels

open Json (Error Source)

namespace Method

/-- A value that is not nested too deep is read in the same way with more room. -/
theorem ofSource_succ
    {depth : Nat} {s : Source} (h : s.nesting ≤ depth) :
    ofSource (depth + 1) s = ofSource depth s := by
  match s with
  | .null | .bool _ | .numeral _ | .string _ | .broken => rfl
  | .array items closed =>
      rw [Source.nesting] at h
      obtain ⟨inner, rfl⟩ : ∃ n, depth = n + 1 := ⟨depth - 1, by omega⟩
      rcases items with _ | ⟨item, rest⟩
      · rcases closed <;> rfl
      · have hitems := Nat.le_of_succ_le_succ h
        rw [Source.itemNesting, Nat.max_le] at hitems
        have hrest := Source.itemValues_succ rest hitems.2
        show (item.asWord >>= fun type => Source.itemValues (inner + 1) rest >>= _) =
          item.asWord >>= fun type => Source.itemValues inner rest >>= _
        rw [hrest]
  | .object members closed =>
      rw [Source.nesting] at h
      obtain ⟨inner, rfl⟩ : ∃ n, depth = n + 1 := ⟨depth - 1, by omega⟩
      have hmembers := Source.nesting_le_of_mem (Nat.le_of_succ_le_succ h)
      rw [ofSource, ofSource, Json.enter, Json.enter]
      congr 1
      apply Source.foldMembers_congr
      intro member hmember state key
      rw [Source.toValue_succ member.2 (hmembers member hmember)]

end Method

theorem Signature.decodeText_eq_ok_iff
    {key : String} {g : Signature} :
    decodeText key = .ok g ↔ ofText? key = some g := by
  rw [decodeText]
  cases ofText? key with
  | none => simp
  | some k => simp

namespace ModelMap

variable {depth : Nat} {g : Signature} {m : Method} {models : ModelMap} {entries : List Entry}
variable {member : Option String × Source} {members : List (Option String × Source)}
variable {s : String} {closed complete : Bool}

/-! ## Members -/

/-- The signature that a member names, if it names one. -/
def signature? (member : Option String × Source) : Option Signature :=
  member.1.bind Signature.ofText?

theorem signature?_eq
    (key : String) (item : Source) :
    signature? (some key, item) = Signature.ofText? key :=
  Option.bind_some key Signature.ofText?

/-- A member describes an entry if it names the signature and its value is read as the method. -/
theorem entryOfMember_eq_ok_iff :
    entryOfMember depth member = .ok (g, m) ↔
      signature? member = some g ∧ Method.ofSource depth member.2 = .ok m := by
  obtain ⟨_ | key, item⟩ := member
  · simp [entryOfMember, signature?]
  · rw [signature?_eq, ← Signature.decodeText_eq_ok_iff]
    constructor
    · intro h
      obtain ⟨k, hk, h⟩ := bind_eq_ok.1 h
      obtain ⟨n, hn, h⟩ := bind_eq_ok.1 h
      cases h
      exact ⟨hk, hn⟩
    · rintro ⟨hk, hn⟩
      exact bind_eq_ok.2 ⟨g, hk, bind_eq_ok.2 ⟨m, hn, rfl⟩⟩

theorem exists_entryOfMember_eq_ok_iff :
    (∃ e, entryOfMember depth member = .ok e) ↔
      (∃ g, signature? member = some g) ∧ ∃ m, Method.ofSource depth member.2 = .ok m := by
  constructor
  · rintro ⟨⟨g, m⟩, h⟩
    obtain ⟨hg, hm⟩ := entryOfMember_eq_ok_iff.1 h
    exact ⟨⟨g, hg⟩, m, hm⟩
  · rintro ⟨⟨g, hg⟩, m, hm⟩
    exact ⟨(g, m), entryOfMember_eq_ok_iff.2 ⟨hg, hm⟩⟩

/-- A signature that no member names has no entry. -/
theorem not_named_iff
    (h : members.map (entryOfMember depth) = entries.map .ok) :
    (∀ member ∈ members, signature? member ≠ some g) ↔ ∀ e ∈ entries, e.1 ≠ g := by
  induction entries generalizing members with
  | nil =>
      rw [List.map_eq_nil_iff.1 h]
      simp
  | cons e rest ih =>
      obtain ⟨member, others, rfl, hmember, hothers⟩ := List.map_eq_cons_iff.1 h
      have hnames : signature? member = some e.1 := (entryOfMember_eq_ok_iff.1 hmember).1
      rw [List.forall_mem_cons, List.forall_mem_cons, ih hothers, hnames, Ne, Option.some.injEq]

/-- How deep the values inside an object may be nested. -/
def valueDepth : Nat :=
  Json.nestingLimit - 1

/-- The last member that names `g` has the value `m`. -/
def NamedLast (members : List (Option String × Source)) (g : Signature) (m : Method) : Prop :=
  ∃ before member after, members = before ++ member :: after ∧
    signature? member = some g ∧ Method.ofSource valueDepth member.2 = .ok m ∧
    ∀ later ∈ after, signature? later ≠ some g

/-- The last entry of a signature is that of the last member that names it. -/
theorem lastWrite_eq_some_iff_namedLast
    (h : members.map (entryOfMember valueDepth) = entries.map .ok) :
    lastWrite g entries = some m ↔ NamedLast members g m := by
  rw [lastWrite_eq_some_iff]
  constructor
  · rintro ⟨before, after, rfl, hafter⟩
    rw [List.map_append, List.map_cons] at h
    obtain ⟨earlier, rest, rfl, -, hrest⟩ := List.map_eq_append_iff.1 h
    obtain ⟨member, later, rfl, hmember, hlater⟩ := List.map_eq_cons_iff.1 hrest
    obtain ⟨hg, hm⟩ := entryOfMember_eq_ok_iff.1 hmember
    exact ⟨earlier, member, later, rfl, hg, hm, (not_named_iff hlater).2 hafter⟩
  · rintro ⟨earlier, member, later, rfl, hg, hm, hlater⟩
    rw [List.map_append, List.map_cons, entryOfMember_eq_ok_iff.2 ⟨hg, hm⟩] at h
    obtain ⟨before, rest, rfl, -, hrest⟩ := List.map_eq_append_iff.1 h.symm
    obtain ⟨e, after, rfl, he, hafter⟩ := List.map_eq_cons_iff.1 hrest
    cases he
    exact ⟨before, after, rfl, (not_named_iff hafter.symm).1 hlater⟩

/-! ## Objects -/

/-- A text with an object is read by the entries of its members, if it is complete. -/
theorem entriesOfJsonText_object
    (h : Source.ofText s = (.object members closed, complete)) :
    entriesOfJsonText s =
      members.mapM (entryOfMember valueDepth) >>= fun entries =>
        Json.requireClosed closed entries >>= Json.requireClosed complete := by
  rw [entriesOfJsonText, Source.decodeText, h, ← bind_assoc]
  rfl

theorem ofJsonText_eq_ok_iff
    (h : Source.ofText s = (.object members closed, complete)) :
    ofJsonText s = .ok models ↔
      closed = true ∧ complete = true ∧
        ∃ entries, members.mapM (entryOfMember valueDepth) = .ok entries ∧
          ofList entries = models := by
  rw [ofJsonText_eq, entriesOfJsonText_object h]
  simp only [map_eq_ok, bind_eq_ok, Json.requireClosed_eq_ok_iff]
  constructor
  · rintro ⟨_, ⟨entries, hread, _, ⟨hclosed, rfl⟩, hcomplete, rfl⟩, hmodels⟩
    exact ⟨hclosed, hcomplete, entries, hread, hmodels⟩
  · rintro ⟨hclosed, hcomplete, entries, hread, hmodels⟩
    exact ⟨entries, ⟨entries, hread, entries, ⟨hclosed, rfl⟩, hcomplete, rfl⟩, hmodels⟩

theorem exists_ofJsonText_eq_ok_iff
    (h : Source.ofText s = (.object members closed, complete)) :
    (∃ models, ofJsonText s = .ok models) ↔
      closed = true ∧ complete = true ∧
        ∀ member ∈ members, ∃ e, entryOfMember valueDepth member = .ok e := by
  simp only [ofJsonText_eq_ok_iff h]
  rw [← exists_mapM_eq_ok_iff]
  constructor
  · rintro ⟨models, hclosed, hcomplete, entries, hread, -⟩
    exact ⟨hclosed, hcomplete, entries, hread⟩
  · rintro ⟨hclosed, hcomplete, entries, hread⟩
    exact ⟨ofList entries, hclosed, hcomplete, entries, hread, rfl⟩

/-- One member that is not read is enough for the whole text not to be read. -/
theorem exists_ofJsonText_eq_error
    {e : Error}
    (h : Source.ofText s = (.object members closed, complete))
    (hmember : member ∈ members) (he : entryOfMember valueDepth member = .error e) :
    ∃ e', ofJsonText s = .error e' := by
  cases hs : ofJsonText s with
  | error e' => exact ⟨e', rfl⟩
  | ok models =>
      obtain ⟨-, -, hread⟩ := (exists_ofJsonText_eq_ok_iff h).1 ⟨models, hs⟩
      obtain ⟨entry, hentry⟩ := hread member hmember
      rw [he] at hentry
      cases hentry

/-- The first member that is not read says why the text is not. -/
theorem ofJsonText_eq_error
    {before after : List (Option String × Source)} {e : Error}
    (h : Source.ofText s = (.object (before ++ member :: after) closed, complete))
    (hbefore : ∀ earlier ∈ before, ∃ entry, entryOfMember valueDepth earlier = .ok entry)
    (he : entryOfMember valueDepth member = .error e) :
    ofJsonText s = .error e := by
  rw [ofJsonText_eq, entriesOfJsonText_object h, mapM_eq_error hbefore he]
  rfl

/--
A complete object is read exactly if every member names a signature and has the value of a model.
The map gives for a signature what the last member that names it has, and nothing for a signature
that no member names.  A member that is not read refuses the whole text, and the first such member
says why.  A value is read as it is by itself, unless it is nested too deep for its place.
-/
theorem ofJsonText_object
    (h : Source.ofText s = (.object members closed, complete)) :
    ((∃ models, ofJsonText s = .ok models) ↔
        closed = true ∧ complete = true ∧ ∀ member ∈ members,
          (∃ g, signature? member = some g) ∧
            ∃ m, Method.ofSource valueDepth member.2 = .ok m) ∧
      (∀ models, ofJsonText s = .ok models →
        (∀ g m, models.get? g = some m ↔ NamedLast members g m) ∧
          ∀ g, models.get? g = none ↔ ∀ member ∈ members, signature? member ≠ some g) ∧
      (∀ before member after e, members = before ++ member :: after →
        entryOfMember valueDepth member = .error e →
          (∃ e', ofJsonText s = .error e') ∧
            ((∀ earlier ∈ before, ∃ entry, entryOfMember valueDepth earlier = .ok entry) →
              ofJsonText s = .error e)) ∧
      ∀ member ∈ members, member.2.nesting ≤ valueDepth →
        Method.ofSource valueDepth member.2 = Method.ofSource Json.nestingLimit member.2 := by
  refine ⟨?_, ?_, ?_, ?_⟩
  · rw [exists_ofJsonText_eq_ok_iff h]
    simp only [exists_entryOfMember_eq_ok_iff]
  · intro models hmodels
    obtain ⟨-, -, entries, hread, rfl⟩ := (ofJsonText_eq_ok_iff h).1 hmodels
    have hentries := mapM_eq_ok_iff.1 hread
    constructor
    · intro g m
      rw [get?_ofList, lastWrite_eq_some_iff_namedLast hentries]
    · intro g
      rw [get?_ofList, lastWrite_eq_none_iff, not_named_iff hentries]
  · rintro before member after e rfl he
    constructor
    · exact exists_ofJsonText_eq_error h (List.mem_append_right before List.mem_cons_self) he
    · intro hbefore
      exact ofJsonText_eq_error h hbefore he
  · intro member _ hnesting
    exact (Method.ofSource_succ hnesting).symm

/-- Two of these three members name the same signature, in different words. -/
theorem ofJsonText_object_repeated :
    let s := "\x7b\"A#f()\":\x7b\"type\":\"none\"\x7d,\"b.B#g()\":[\"neutral\",\"manual\"]," ++
      "\".A#f()\":\x7b\"type\":\"neutral\",\"provenance\":\"generated\"\x7d\x7d"
    let members : List (Option String × Source) :=
      [(some "A#f()", .object [(some "type", .string (some "none"))] true),
        (some "b.B#g()", .array [.string (some "neutral"), .string (some "manual")] true),
        (some ".A#f()", .object
          [(some "type", .string (some "neutral")),
            (some "provenance", .string (some "generated"))] true)]
    Source.ofText s = (.object members true, true) ∧
      ∃ models, ofJsonText s = .ok models ∧
        ∃ f, Signature.ofText? "A#f()" = some f ∧
          models.get? f = some (.neutral .generated) := by
  intro s members
  have htext : Source.ofText s = (.object members true, true) := by
    unfold s members
    cbv
  let f : Signature := ⟨"", "A", "f", "()", by
    simp [Signature.wellFormed_iff, Signature.Plain, Signature.reserved]⟩
  let g : Signature := ⟨"b", "B", "g", "()", by
    simp [Signature.wellFormed_iff, Signature.Plain, Signature.reserved]⟩
  have hdotless : Signature.ofText? "A#f()" = some f :=
    Signature.ofText?_eq_some_iff.2 (.inr ⟨rfl, rfl⟩)
  have hdotted : Signature.ofText? ".A#f()" = some f :=
    Signature.ofText?_eq_some_iff.2 (.inl rfl)
  have hother : Signature.ofText? "b.B#g()" = some g :=
    Signature.ofText?_eq_some_iff.2 (.inl rfl)
  obtain ⟨hread, hget, -⟩ := ofJsonText_object htext
  have hmembers : ∀ member ∈ members, (∃ g, signature? member = some g) ∧
      ∃ m, Method.ofSource valueDepth member.2 = .ok m := by
    simp only [members, List.forall_mem_cons, signature?_eq]
    exact ⟨⟨⟨f, hdotless⟩, .unmodeled, rfl⟩, ⟨⟨g, hother⟩, .neutral .manual, rfl⟩,
      ⟨⟨f, hdotted⟩, .neutral .generated, rfl⟩, by simp⟩
  have hlast : NamedLast members f (.neutral .generated) :=
    ⟨members.take 2, _, [], rfl, (signature?_eq _ _).trans hdotted, rfl, by simp⟩
  obtain ⟨models, hmodels⟩ := hread.2 ⟨rfl, rfl, hmembers⟩
  exact ⟨htext, models, hmodels, f, hdotless, ((hget models hmodels).1 f _).2 hlast⟩

end ModelMap

end LibraryModels
