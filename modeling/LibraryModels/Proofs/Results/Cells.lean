import LibraryModels.Proofs.Except
import LibraryModels.Results.Json
import Mathlib.Data.Option.Basic
import Mathlib.Tactic.Common

/-!
# The values that are cells

The type of a value says what kind of cell it is, so the kinds are never in doubt: texts, booleans
and numbers are cells by themselves, and an object or a list can only be an entity.  Each part of an
entity is given once at most, by the member with its name or by the item in its place, and a part
that is given as absent is as good as left out.
-/

namespace LibraryModels

open Json (Error Source Value)

variable {v : Value}

namespace Entity

/-! ## What is given for the parts of an entity -/

/--
What the values that are given for a part say: there is at most one of them, and the part may be
absent.
-/
inductive Says {α : Type} (Means : Value → α → Prop) : List Value → Option α → Prop where
  | missing : Says Means [] none
  | absent : Says Means [.null] none
  | given {v : Value} {a : α} (h : Means v a) : Says Means [v] (some a)

/-- A label is a text. -/
def IsLabel (v : Value) (s : String) : Prop :=
  v = .string s

/-- An identifier is an integer of 64 bits with a sign. -/
def IsId (v : Value) (n : Int) : Prop :=
  v = .number (.integer n) ∧ Number.minInteger ≤ n ∧ n ≤ Number.maxSigned

/-- A location is any value; its members are put in order. -/
def IsUrl (v : Value) (url : Value) : Prop :=
  v ≠ .null ∧ url = orderedMembers v

/-- The parts of an entity are what the values that are given for them say. -/
structure IsGiven (labels ids urls : List Value) (e : Entity) : Prop where
  label : Says IsLabel labels e.label
  id : Says IsId ids e.id
  url : Says IsUrl urls e.url

section Says

variable {α : Type} {Means : Value → α → Prop} {o : Option α}

theorem says_nil_iff : Says Means [] o ↔ o = none := by
  constructor
  · rintro ⟨⟩
    rfl
  · rintro rfl
    exact .missing

theorem says_singleton_iff :
    Says Means [v] o ↔ (v = .null ∧ o = none) ∨ ∃ a, Means v a ∧ o = some a := by
  constructor
  · rintro (_ | _ | ⟨h⟩)
    · exact .inl ⟨rfl, rfl⟩
    · exact .inr ⟨_, h, rfl⟩
  · rintro (⟨rfl, rfl⟩ | ⟨a, h, rfl⟩)
    · exact .absent
    · exact .given h

/-- A part that is given as absent is as good as left out. -/
theorem says_null_iff
    (h : ∀ a, ¬Means .null a) :
    Says Means [.null] o ↔ Says Means [] o := by
  rw [says_singleton_iff, says_nil_iff]
  constructor
  · rintro (⟨-, rfl⟩ | ⟨a, ha, -⟩)
    · rfl
    · exact absurd ha (h a)
  · rintro rfl
    exact .inl ⟨rfl, rfl⟩

end Says

theorem isGiven_iff
    {labels ids urls : List Value} {e : Entity} :
    IsGiven labels ids urls e ↔
      Says IsLabel labels e.label ∧ Says IsId ids e.id ∧ Says IsUrl urls e.url :=
  ⟨fun h => ⟨h.label, h.id, h.url⟩, fun ⟨label, id, url⟩ => ⟨label, id, url⟩⟩

theorem label?_eq_some_iff {o : Option String} :
    label? v = some o ↔ Says IsLabel [v] o := by
  rw [says_singleton_iff]
  cases v
  all_goals simp [label?, IsLabel, eq_comm]

theorem id?_eq_some_iff {o : Option Int} :
    id? v = some o ↔ Says IsId [v] o := by
  rw [says_singleton_iff]
  rcases v with _ | _ | (n | x) | _ | _ | _
  case number.integer =>
    by_cases h : Number.minInteger ≤ n ∧ n ≤ Number.maxSigned
    · simp [id?, IsId, h, eq_comm]
    · simp [id?, IsId, h]
  all_goals simp [id?, IsId, eq_comm]

theorem location_eq_iff {o : Option Value} :
    location v = o ↔ Says IsUrl [v] o := by
  rw [says_singleton_iff]
  cases v
  all_goals simp [location, IsUrl, eq_comm]

/-! ## Lists -/

/-- Items are an entity if there are at most three of them, which say what its parts are in order. -/
theorem ofItems?_eq_some_iff
    {items : List Value} {e : Entity} :
    ofItems? items = some e ↔
      items.length ≤ 3 ∧
        IsGiven (items.take 1) ((items.drop 1).take 1) ((items.drop 2).take 1) e := by
  obtain ⟨label, id, url⟩ := e
  rw [isGiven_iff]
  match items with
  | [] => simp [ofItems?, says_nil_iff, eq_comm]
  | [a] =>
      simp [ofItems?, says_nil_iff, ← label?_eq_some_iff, Option.bind_eq_some_iff,
        @eq_comm _ none]
  | [a, b] =>
      simp [ofItems?, says_nil_iff, ← label?_eq_some_iff, ← id?_eq_some_iff,
        Option.bind_eq_some_iff, @eq_comm _ none]
  | [a, b, c] =>
      simp [ofItems?, ← label?_eq_some_iff, ← id?_eq_some_iff, ← location_eq_iff,
        Option.bind_eq_some_iff]
  | _ :: _ :: _ :: _ :: _ => simp [ofItems?]

/-! ## Objects -/

/-- The values that members give under a name. -/
def valuesOf (key : String) (members : List (String × Value)) : List Value :=
  members.filterMap fun (name, v) => if name = key then some v else none

theorem mem_valuesOf
    {key : String} {members : List (String × Value)} :
    v ∈ valuesOf key members ↔ (key, v) ∈ members := by
  simp [valuesOf, and_comm]

theorem valuesOf_append (key : String) (members more : List (String × Value)) :
    valuesOf key (members ++ more) = valuesOf key members ++ valuesOf key more :=
  List.filterMap_append

theorem valuesOf_eq_nil
    {key : String} {members : List (String × Value)}
    (h : ∀ e ∈ members, e.1 ≠ key) :
    valuesOf key members = [] :=
  List.filterMap_eq_nil_iff.2 fun e he => if_neg (h e he)

theorem valuesOf_singleton (key name : String) (v : Value) :
    valuesOf key [(name, v)] = if name = key then [v] else [] := by
  by_cases h : name = key <;> simp [valuesOf, h]

section Takes

variable {α : Type} {read : Value → Option α} {earlier later : Option α}
variable {values more : List Value}

/-- Of the values for a part there is none, or one that is read; nothing was taken before it. -/
def Takes (read : Value → Option α) (earlier : Option α) (values : List Value)
    (later : Option α) : Prop :=
  (values = [] ∧ later = earlier) ∨
    earlier = none ∧ ∃ v a, values = [v] ∧ read v = some a ∧ later = some a

theorem takes_nil_iff : Takes read earlier [] later ↔ later = earlier := by
  simp [Takes]

theorem takes_cons_iff :
    Takes read earlier (v :: values) later ↔
      earlier = none ∧ ∃ a, read v = some a ∧ Takes read (some a) values later := by
  simp only [Takes, reduceCtorEq, false_and, false_or, or_false, List.cons.injEq]
  constructor
  · rintro ⟨rfl, _, a, ⟨rfl, rfl⟩, ha, rfl⟩
    exact ⟨rfl, a, ha, rfl, rfl⟩
  · rintro ⟨rfl, a, ha, rfl, rfl⟩
    exact ⟨rfl, v, a, ⟨rfl, rfl⟩, ha, rfl⟩

theorem takes_singleton_iff :
    Takes read earlier [v] later ↔ earlier = none ∧ ∃ a, read v = some a ∧ later = some a := by
  simp only [takes_cons_iff, takes_nil_iff]

theorem takes_append_iff :
    Takes read earlier (values ++ more) later ↔
      ∃ between, Takes read earlier values between ∧ Takes read between more later := by
  induction values generalizing earlier with
  | nil => simp [takes_nil_iff]
  | cons v rest ih =>
      simp only [List.cons_append, takes_cons_iff, ih]
      constructor
      · rintro ⟨hopen, a, ha, between, hrest, hmore⟩
        exact ⟨between, ⟨hopen, a, ha, hrest⟩, hmore⟩
      · rintro ⟨between, ⟨hopen, a, ha, hrest⟩, hmore⟩
        exact ⟨hopen, a, ha, between, hrest, hmore⟩

/-- What is taken in all is what the values say. -/
theorem exists_takes_iff
    {read : Value → Option (Option α)} {Means : Value → α → Prop} {o : Option α}
    (hread : ∀ v o, read v = some o ↔ Says Means [v] o) :
    (∃ later, Takes read none values later ∧ later.getD none = o) ↔ Says Means values o := by
  match values with
  | [] => simp [takes_nil_iff, says_nil_iff, eq_comm]
  | [v] => simp [takes_singleton_iff, ← hread]
  | v :: w :: rest =>
      simp only [takes_cons_iff, reduceCtorEq, false_and, and_false, exists_false, false_iff]
      rintro ⟨⟩

end Takes

/-- The parts of an entity that members have given so far; one that was given may be absent. -/
abbrev Parts : Type :=
  Option (Option String) × Option (Option Int) × Option (Option Value)

/-- Takes one member. -/
def Parts.add (parts : Parts) (member : String × Value) : Option Parts :=
  match member.1 with
  | "label" => do
    guard parts.1.isNone
    return (some (← label? member.2), parts.2.1, parts.2.2)
  | "id" => do
    guard parts.2.1.isNone
    return (parts.1, some (← id? member.2), parts.2.2)
  | "url" => do
    guard parts.2.2.isNone
    return (parts.1, parts.2.1, some (location member.2))
  | _ => some parts

theorem ofMembers?_eq (members : List (String × Value)) :
    ofMembers? members =
      (members.foldlM Parts.add (none, none, none)).map fun parts =>
        ⟨parts.1.getD none, parts.2.1.getD none, parts.2.2.getD none⟩ := by
  rw [ofMembers?, Option.map_eq_bind]
  congr 1

namespace Parts

variable {parts later : Parts} {member : String × Value} {members more : List (String × Value)}

/-- What has been given for each part after some more members. -/
def After (parts : Parts) (members : List (String × Value)) (later : Parts) : Prop :=
  Takes label? parts.1 (valuesOf "label" members) later.1 ∧
    Takes id? parts.2.1 (valuesOf "id" members) later.2.1 ∧
    Takes (some ∘ location) parts.2.2 (valuesOf "url" members) later.2.2

theorem after_nil_iff : After parts [] later ↔ parts = later := by
  simp [After, valuesOf, takes_nil_iff, Prod.ext_iff, eq_comm]

theorem after_append_iff :
    After parts (members ++ more) later ↔
      ∃ between, After parts members between ∧ After between more later := by
  simp only [After, valuesOf_append, takes_append_iff, Prod.exists]
  constructor
  · rintro ⟨⟨label, hlabel, hlabel'⟩, ⟨id, hid, hid'⟩, url, hurl, hurl'⟩
    exact ⟨label, id, url, ⟨hlabel, hid, hurl⟩, hlabel', hid', hurl'⟩
  · rintro ⟨label, id, url, ⟨hlabel, hid, hurl⟩, hlabel', hid', hurl'⟩
    exact ⟨⟨label, hlabel, hlabel'⟩, ⟨id, hid, hid'⟩, url, hurl, hurl'⟩

theorem guarded_eq_some_iff
    {α β : Type} {earlier x : Option α} {f : α → β} {b : β} :
    (do
      guard earlier.isNone
      return f (← x)) = some b ↔ earlier = none ∧ ∃ a, x = some a ∧ f a = b := by
  cases earlier with
  | none => simp [Option.bind_eq_some_iff]
  | some _ => simp

theorem add_eq_some_iff : parts.add member = some later ↔ After parts [member] later := by
  obtain ⟨key, v⟩ := member
  obtain ⟨label, id, url⟩ := parts
  obtain ⟨label', id', url'⟩ := later
  simp only [After, valuesOf_singleton]
  unfold add
  -- only the part that the name stands for can change, and only if it is open
  split
  case h_1 hkey =>
    cases show key = "label" from hkey
    simp only [guarded_eq_some_iff, Prod.mk.injEq, takes_singleton_iff, takes_nil_iff, if_true,
      String.reduceEq, if_false]
    grind
  case h_2 hkey =>
    cases show key = "id" from hkey
    simp only [guarded_eq_some_iff, Prod.mk.injEq, takes_singleton_iff, takes_nil_iff, if_true,
      String.reduceEq, if_false]
    grind
  case h_3 hkey =>
    cases show key = "url" from hkey
    cases url with
    | none => simp [takes_singleton_iff, takes_nil_iff, eq_comm]
    | some _ => simp [takes_singleton_iff]
  case h_4 hlabel hid hurl =>
    rw [if_neg hlabel, if_neg hid, if_neg hurl]
    simp [takes_nil_iff, eq_comm]

theorem foldlM_add_eq_some_iff :
    members.foldlM add parts = some later ↔ After parts members later := by
  induction members generalizing parts with
  | nil => exact Option.some_inj.trans after_nil_iff.symm
  | cons member rest ih =>
      rw [List.foldlM_cons, ← List.singleton_append, after_append_iff]
      simp only [Option.bind_eq_bind, Option.bind_eq_some_iff, add_eq_some_iff, ih]

end Parts

/-- Members are an entity if its parts are what the members with their names say. -/
theorem ofMembers?_eq_some_iff
    {members : List (String × Value)} {e : Entity} :
    ofMembers? members = some e ↔
      IsGiven (valuesOf "label" members) (valuesOf "id" members) (valuesOf "url" members) e := by
  have hlabel : (∃ later, Takes label? none (valuesOf "label" members) later ∧
      later.getD none = e.label) ↔ _ :=
    exists_takes_iff fun _ _ => label?_eq_some_iff
  have hid : (∃ later, Takes id? none (valuesOf "id" members) later ∧
      later.getD none = e.id) ↔ _ :=
    exists_takes_iff fun _ _ => id?_eq_some_iff
  have hurl : (∃ later, Takes (some ∘ location) none (valuesOf "url" members) later ∧
      later.getD none = e.url) ↔ _ :=
    exists_takes_iff fun _ _ => Option.some_inj.trans location_eq_iff
  rw [ofMembers?_eq, isGiven_iff, ← hlabel, ← hid, ← hurl]
  simp only [Option.map_eq_some_iff, Parts.foldlM_add_eq_some_iff, Prod.exists]
  constructor
  · rintro ⟨label, id, url, ⟨hl, hi, hu⟩, rfl⟩
    exact ⟨⟨label, hl, rfl⟩, ⟨id, hi, rfl⟩, url, hu, rfl⟩
  · rintro ⟨⟨label, hl, hl'⟩, ⟨id, hi, hi'⟩, url, hu, hu'⟩
    refine ⟨label, id, url, ⟨hl, hi, hu⟩, ?_⟩
    rw [hl', hi', hu']

/-- A member that gives a part as absent is as good as left out. -/
theorem ofMembers?_null
    {key : String} {before after : List (String × Value)}
    (hkey : key ∈ ["label", "id", "url"]) (h : ∀ e ∈ before ++ after, e.1 ≠ key) :
    ofMembers? (before ++ (key, .null) :: after) = ofMembers? (before ++ after) := by
  have hnames := List.forall_mem_append.1 h
  have hbefore := valuesOf_eq_nil hnames.1
  have hafter := valuesOf_eq_nil hnames.2
  have hvalues (name : String) : valuesOf name (before ++ (key, .null) :: after) =
      valuesOf name before ++ (if key = name then [.null] else []) ++ valuesOf name after := by
    rw [← List.singleton_append, valuesOf_append, valuesOf_append, valuesOf_singleton,
      List.append_assoc]
  refine Option.ext fun e => ?_
  rw [ofMembers?_eq_some_iff, ofMembers?_eq_some_iff, isGiven_iff, isGiven_iff]
  simp only [hvalues, valuesOf_append]
  simp only [List.mem_cons, List.not_mem_nil, or_false] at hkey
  have hlabel : Says IsLabel [.null] e.label ↔ Says IsLabel [] e.label := says_null_iff nofun
  have hid : Says IsId [.null] e.id ↔ Says IsId [] e.id := says_null_iff nofun
  have hurl : Says IsUrl [.null] e.url ↔ Says IsUrl [] e.url :=
    says_null_iff fun _ hmeans => hmeans.1 rfl
  rcases hkey with rfl | rfl | rfl
  all_goals simp [hbefore, hafter, hlabel, hid, hurl]

/-- An absent part at the end of a list is as good as left out. -/
theorem ofItems?_null
    {items : List Value}
    (h : items.length < 3) :
    ofItems? (items ++ [.null]) = ofItems? items := by
  match items with
  | [] => rfl
  | [a] => simp [ofItems?, id?]
  | [a, b] => simp [ofItems?, location]

end Entity

/-! ## Cells -/

namespace Cell

open Entity (valuesOf)

/-- The cells that values stand for; the absent value stands for none. -/
inductive StandsFor : Value → Cell → Prop where
  | text (s : String) : StandsFor (.string s) (.text s)
  | boolean (b : Bool) : StandsFor (.bool b) (.boolean b)
  | number (n : Number) : StandsFor (.number n) (.number n)
  /-- The parts are given by name; members with other names do not count. -/
  | object {members : List (String × Value)} {e : Entity}
      (h : e.IsGiven (valuesOf "label" members) (valuesOf "id" members) (valuesOf "url" members)) :
      StandsFor (.object members) (.entity e)
  /-- The parts are given in order; those at the end may be left out. -/
  | list {items : List Value} {e : Entity}
      (hlength : items.length ≤ 3)
      (h : e.IsGiven (items.take 1) ((items.drop 1).take 1) ((items.drop 2).take 1)) :
      StandsFor (.array items) (.entity e)

variable {c : Cell} {depth : Nat} {item : Source}

theorem ofValue?_eq_some_iff : ofValue? v = some c ↔ StandsFor v c := by
  constructor
  · intro h
    cases v with
    | null => cases h
    | bool b =>
        cases h
        exact .boolean b
    | number n =>
        cases h
        exact .number n
    | string s =>
        cases h
        exact .text s
    | array items =>
        obtain ⟨e, he, rfl⟩ := Option.map_eq_some_iff.1 h
        obtain ⟨hlength, hgiven⟩ := Entity.ofItems?_eq_some_iff.1 he
        exact .list hlength hgiven
    | object members =>
        obtain ⟨e, he, rfl⟩ := Option.map_eq_some_iff.1 h
        exact .object (Entity.ofMembers?_eq_some_iff.1 he)
  · intro h
    cases h with
    | text s => rfl
    | boolean b => rfl
    | number n => rfl
    | object h => exact Option.map_eq_some_iff.2 ⟨_, Entity.ofMembers?_eq_some_iff.2 h, rfl⟩
    | list hlength h =>
        exact Option.map_eq_some_iff.2 ⟨_, Entity.ofItems?_eq_some_iff.2 ⟨hlength, h⟩, rfl⟩

/-- A cell has a text exactly if its value is a text. -/
theorem StandsFor.text?_eq_some_iff
    {s : String}
    (h : StandsFor v c) :
    c.text? = some s ↔ v = .string s := by
  cases h <;> simp [text?]

/-- An item of a tuple is read by its value. -/
theorem ofSource_eq_ok_iff :
    ofSource depth item = .ok c ↔ ∃ v, item.toValue depth = .ok v ∧ StandsFor v c := by
  rw [ofSource, bind_eq_ok]
  refine exists_congr fun v => and_congr_right fun _ => ?_
  rw [← ofValue?_eq_some_iff]
  cases ofValue? v with
  | none => exact ⟨nofun, nofun⟩
  | some d =>
      rw [Option.some.injEq]
      exact ⟨Except.ok.inj, congrArg Except.ok⟩

end Cell

end LibraryModels
