import LibraryModels.Json.Decode
import LibraryModels.Proofs.Except

/-!
# Containers that decode

Members of an object are taken one after the other, and items of a list each by itself.  A list is
read exactly if it is complete and each of its items is read.
-/

namespace LibraryModels.Json

variable {α β σ : Type} {depth : Nat} {closed : Bool}

theorem map_requireClosed (f : α → β) (closed : Bool) (a : α) :
    f <$> requireClosed closed a = requireClosed closed (f a) := by
  rcases closed with _ | _ <;> rfl

theorem requireClosed_eq_ok_iff
    {a b : α} :
    requireClosed closed a = .ok b ↔ closed = true ∧ a = b := by
  rcases closed with _ | _ <;> simp [requireClosed]

/-- What is read from a container is a result only if the container is complete. -/
theorem bind_requireClosed_eq_ok_iff
    {x : Except Error α} {f : α → β} {b : β} :
    (x >>= fun a => requireClosed closed (f a)) = .ok b ↔
      closed = true ∧ ∃ a, x = .ok a ∧ f a = b := by
  rw [bind_eq_ok]
  simp only [requireClosed_eq_ok_iff]
  constructor
  · rintro ⟨a, hx, hclosed, rfl⟩
    exact ⟨hclosed, a, hx, rfl⟩
  · rintro ⟨hclosed, a, hx, rfl⟩
    exact ⟨a, hx, hclosed, rfl⟩

theorem setOnce_eq_ok_iff
    {field : String} {earlier later : Option α} {value : Except Error α} :
    setOnce field earlier value = .ok later ↔
      earlier = none ∧ ∃ a, value = .ok a ∧ later = some a := by
  rw [setOnce]
  cases earlier with
  | some _ => simp
  | none =>
      cases value with
      | error e => simp [Except.map]
      | ok a => simp [Except.map, eq_comm]

namespace Source

theorem mismatch_ne_ok (expected : String) (s : Source) (a : α) :
    (s.mismatch expected : Except Error α) ≠ .ok a := by
  intro h
  obtain ⟨_, _, h⟩ := bind_eq_ok.1 h
  cases h

theorem map_mismatch (f : α → β) (expected : String) (s : Source) :
    f <$> (s.mismatch expected : Except Error α) = s.mismatch expected := by
  rw [mismatch, mismatch, map_bind]
  rfl

/-! ## Values -/

section Values

variable {v : Value}

theorem toValue_array_eq_ok_iff
    {items : List Source} :
    (array items closed).toValue depth = .ok v ↔
      closed = true ∧ ∃ inner, depth = inner + 1 ∧
        ∃ values, itemValues inner items = .ok values ∧ v = .array values := by
  rcases depth with _ | inner
  · rw [toValue]
    simp
  · rw [toValue, bind_requireClosed_eq_ok_iff]
    simp only [Nat.add_right_cancel_iff, exists_eq_left', eq_comm]

theorem toValue_object_eq_ok_iff
    {members : List (Option String × Source)} :
    (object members closed).toValue depth = .ok v ↔
      closed = true ∧ ∃ inner, depth = inner + 1 ∧
        ∃ values, memberValues inner members = .ok values ∧ v = .object values := by
  rcases depth with _ | inner
  · rw [toValue]
    simp
  · rw [toValue, bind_requireClosed_eq_ok_iff]
    simp only [Nat.add_right_cancel_iff, exists_eq_left', eq_comm]

/-- Only a text has a text as its value. -/
theorem toValue_eq_string_iff
    {item : Source} {text : String} :
    item.toValue depth = .ok (.string text) ↔ item = .string (some text) := by
  constructor
  · intro h
    match item with
    | null | bool _ | broken | string none =>
        rw [toValue] at h
        cases h
    | string (some _) =>
        rw [toValue] at h
        cases h
        rfl
    | numeral n =>
        rw [toValue] at h
        split at h
        all_goals cases h
    | array items closed =>
        obtain ⟨_, inner, _, values, _, hv⟩ := toValue_array_eq_ok_iff.1 h
        cases hv
    | object members closed =>
        obtain ⟨_, inner, _, values, _, hv⟩ := toValue_object_eq_ok_iff.1 h
        cases hv
  · rintro rfl
    rw [toValue]

end Values

theorem decodeText_eq_ok_iff
    {decode : Nat → Source → Except Error α} {s : String} {source : Source} {complete : Bool}
    {a : α}
    (h : ofText s = (source, complete)) :
    decodeText decode s = .ok a ↔ complete = true ∧ decode nestingLimit source = .ok a := by
  rw [decodeText, h, bind_requireClosed_eq_ok_iff]
  simp only [exists_eq_right]

/-! ## Members -/

section Members

variable {step step' : σ → String → Source → Except Error σ}
variable {members : List (Option String × Source)}

theorem foldMembers_cons (step : σ → String → Source → Except Error σ)
    (start : σ) (key : String) (item : Source) (members : List (Option String × Source))
    (closed : Bool) :
    foldMembers step start ((some key, item) :: members) closed =
      step start key item >>= fun next => foldMembers step next members closed := by
  rw [foldMembers, List.foldlM_cons, bind_assoc]
  rfl

/-- Going through members depends only on what is done with each of them. -/
theorem foldMembers_congr
    (h : ∀ member ∈ members, ∀ state key, step state key member.2 = step' state key member.2)
    (start : σ) :
    foldMembers step start members closed = foldMembers step' start members closed := by
  induction members generalizing start with
  | nil => rfl
  | cons member rest ih =>
      obtain ⟨_ | key, item⟩ := member
      · rfl
      · have hrest := ih fun later hlater => h later (List.mem_cons_of_mem _ hlater)
        rw [foldMembers_cons, foldMembers_cons, h (some key, item) List.mem_cons_self]
        exact congrArg (step' start key item >>= ·) (funext hrest)

/-- What holds at the start and is kept by each member holds at the end. -/
theorem foldMembers_induction
    {P : σ → Prop} {start last : σ}
    (hstart : P start)
    (hstep : ∀ member ∈ members, ∀ state key next,
      P state → step state key member.2 = .ok next → P next)
    (h : foldMembers step start members closed = .ok last) :
    P last := by
  induction members generalizing start with
  | nil =>
      obtain ⟨-, rfl⟩ := requireClosed_eq_ok_iff.1 (show requireClosed closed start = .ok last from h)
      exact hstart
  | cons member rest ih =>
      rw [List.forall_mem_cons] at hstep
      obtain ⟨_ | key, item⟩ := member
      · cases h
      · rw [foldMembers_cons] at h
        obtain ⟨next, hnext, h⟩ := bind_eq_ok.1 h
        exact ih (hstep.1 start key next hstart hnext) hstep.2 h

/-- A member does not count. -/
def Idle (step : σ → String → Source → Except Error σ) (member : Option String × Source) : Prop :=
  ∃ key, member.1 = some key ∧ ∀ state, step state key member.2 = .ok state

theorem foldMembers_append_of_idle
    {idle : List (Option String × Source)}
    (h : ∀ member ∈ idle, Idle step member) (start : σ) :
    foldMembers step start (idle ++ members) closed = foldMembers step start members closed := by
  induction idle with
  | nil => rfl
  | cons member rest ih =>
      obtain ⟨_, item⟩ := member
      obtain ⟨key, rfl, hstep⟩ := h _ List.mem_cons_self
      have hrest := ih fun later hlater => h later (List.mem_cons_of_mem _ hlater)
      rw [List.cons_append, foldMembers_cons, hstep]
      exact hrest

theorem foldMembers_of_idle
    (h : ∀ member ∈ members, Idle step member) (start : σ) :
    foldMembers step start members closed = requireClosed closed start := by
  rw [← List.append_nil members, foldMembers_append_of_idle h]
  rfl

end Members

/-! ## Items -/

section Items

variable {decode : Nat → Source → Except Error α} {s : Source} {items : List Source}
variable {values : List α}

theorem asList_eq_ok_iff :
    (array items closed).asList (depth + 1) decode = .ok values ↔
      closed = true ∧ List.Forall₂ (fun item a => decode depth item = .ok a) items values := by
  rw [asList, enter, bind_requireClosed_eq_ok_iff, ← mapM_eq_ok_iff_forall₂]
  simp only [exists_eq_right]

/-- Only a list is read as one, where there is room for it, and its items are read in turn. -/
theorem exists_of_asList_eq_ok
    (h : s.asList depth decode = .ok values) :
    ∃ items inner, s = array items true ∧ depth = inner + 1 ∧
      ∀ a ∈ values, ∃ item ∈ items, decode inner item = .ok a := by
  match s, depth with
  | array items closed, inner + 1 =>
      obtain ⟨rfl, hitems⟩ := asList_eq_ok_iff.1 h
      refine ⟨items, inner, rfl, rfl, fun a ha => ?_⟩
      rw [← mapM_eq_ok_iff_forall₂, mapM_eq_ok_iff] at hitems
      exact List.mem_map.1 (hitems ▸ List.mem_map_of_mem ha)
  | array items closed, 0 => cases h
  | null, _ | bool _, _ | numeral _, _ | string _, _ | object .., _ | broken, _ =>
      exact absurd h (mismatch_ne_ok _ _ _)

end Items

end Source

end LibraryModels.Json
