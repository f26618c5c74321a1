import LibraryModels.Proofs.Except
import LibraryModels.Yaml.Decode
import Mathlib.Data.List.Forall2

/-!
# What readers of a document give

A reader of a part of a document gives what that part says, or fails.  `Gives x P cost` says both
ways that the results of a reader are the values with a property: whatever it gives has the
property, and a value with the property is given as long as `cost` more aliases may be followed.
The rules follow the ways in which readers are put together.  A document allows more aliases than
it has parts, so a reader that looks at each part a few times never runs out of them.
-/

namespace LibraryModels.Yaml

variable {α β σ : Type}

/-! ## Rules -/

/-- The results of a reader are the values with a property, and it follows few enough aliases. -/
structure Gives (x : Decoder α) (P : α → Prop) (cost : Nat) : Prop where
  sound : ∀ {left a left'}, x.run left = .ok (a, left') → P a
  complete : ∀ a left, P a → cost ≤ left →
    ∃ left', x.run left = .ok (a, left') ∧ left ≤ left' + cost

namespace Gives

variable {x : Decoder α} {P : α → Prop} {m n : Nat}

theorem pure (a : α) :
    Gives (Pure.pure a : Decoder α) (· = a) 0 where
  sound h := by
    cases h
    rfl
  complete := by
    rintro b left rfl -
    exact ⟨left, rfl, Nat.le_refl left⟩

theorem throw (e : Error) :
    Gives (MonadExcept.throw e : Decoder α) (fun _ => False) 0 where
  sound := nofun
  complete _ _ h := h.elim

/-- A reader has a property of its results, and a greater bound, as well. -/
theorem of_iff
    {Q : α → Prop}
    (h : Gives x P m) (hiff : ∀ a, P a ↔ Q a) (hcost : m ≤ n) :
    Gives x Q n where
  sound hrun := (hiff _).1 (h.sound hrun)
  complete a left ha hleft := by
    obtain ⟨left', hrun, hleft'⟩ := h.complete a left ((hiff a).2 ha) (by omega)
    exact ⟨left', hrun, by omega⟩

theorem bind
    {f : α → Decoder β} {Q : α → β → Prop}
    (hx : Gives x P m) (hf : ∀ a, P a → Gives (f a) (Q a) n) :
    Gives (x >>= f) (fun b => ∃ a, P a ∧ Q a b) (m + n) where
  sound := by
    intro left b left' hrun
    rw [StateT.run_bind] at hrun
    obtain ⟨⟨a, middle⟩, hfirst, hrest⟩ := bind_eq_ok.1 hrun
    have ha := hx.sound hfirst
    exact ⟨a, ha, (hf a ha).sound hrest⟩
  complete := by
    rintro b left ⟨a, ha, hb⟩ hleft
    obtain ⟨middle, hfirst, hmiddle⟩ := hx.complete a left ha (by omega)
    obtain ⟨left', hrest, hleft'⟩ := (hf a ha).complete b middle hb (by omega)
    refine ⟨left', ?_, by omega⟩
    rw [StateT.run_bind, hfirst]
    exact hrest

theorem map
    {f : α → β}
    (hx : Gives x P m) :
    Gives (f <$> x) (fun b => ∃ a, P a ∧ b = f a) m := by
  rw [map_eq_pure_bind]
  exact hx.bind fun a _ => pure (f a)

theorem mapM
    {f : β → Decoder α} {R : β → α → Prop} {xs : List β}
    (hf : ∀ b ∈ xs, Gives (f b) (R b) n) :
    Gives (xs.mapM f) (List.Forall₂ R xs) (xs.length * n) := by
  induction xs with
  | nil =>
      rw [List.mapM_nil]
      refine (pure []).of_iff (fun as => ?_) (Nat.zero_le _)
      rw [List.forall₂_nil_left_iff]
  | cons b xs ih =>
      have hrest := ih fun c hc => hf c (List.mem_cons_of_mem b hc)
      have hall := (hf b List.mem_cons_self).bind fun a _ =>
        hrest.bind fun as _ => Gives.pure (a :: as)
      rw [List.mapM_cons]
      refine hall.of_iff (fun as => ?_) ?_
      · rw [List.forall₂_cons_left_iff]
        constructor
        · rintro ⟨a, ha, rest, hr, rfl⟩
          exact ⟨a, rest, ha, hr, rfl⟩
        · rintro ⟨a, rest, ha, hr, rfl⟩
          exact ⟨a, ha, rest, hr, rfl⟩
      · rw [List.length_cons, Nat.succ_mul]
        omega

end Gives

/-- From one state to another by one step for each element. -/
def Steps (R : σ → β → σ → Prop) : σ → List β → σ → Prop
  | s, [], t => t = s
  | s, b :: bs, t => ∃ u, R s b u ∧ Steps R u bs t

theorem Gives.foldlM
    {f : σ → β → Decoder σ} {R : σ → β → σ → Prop} {xs : List β} {n : Nat}
    (hf : ∀ b ∈ xs, ∀ s, Gives (f s b) (R s b) n) (s : σ) :
    Gives (xs.foldlM f s) (Steps R s xs) (xs.length * n) := by
  induction xs generalizing s with
  | nil => exact (Gives.pure s).of_iff (fun _ => Iff.rfl) (Nat.zero_le _)
  | cons b xs ih =>
      rw [List.foldlM_cons]
      have hrest := ih fun c hc => hf c (List.mem_cons_of_mem b hc)
      refine ((hf b List.mem_cons_self s).bind fun t _ => hrest t).of_iff (fun _ => Iff.rfl) ?_
      rw [List.length_cons, Nat.succ_mul]
      omega

/-! ## Nodes -/

theorem gives_readable (o : Option α) :
    Gives (readable o) (fun a => o = some a) 0 := by
  cases o with
  | none => exact (Gives.throw .unreadable).of_iff (fun a => by simp) (Nat.le_refl 0)
  | some b => exact (Gives.pure b).of_iff (fun a => by simp [eq_comm]) (Nat.le_refl 0)

theorem Content.gives_mismatch (c : Content) (path : Path) (expected : String) :
    Gives (c.mismatch path expected : Decoder α) (fun _ => False) 0 := by
  have hfault := (gives_readable c.found?).bind fun found _ =>
    Gives.throw (α := α) (.fault path (.invalidType found expected))
  exact hfault.of_iff (fun _ => by simp) (Nat.le_refl 0)

namespace Document

variable {d : Document} {node : Node Nat} {depth : Nat} {path : Path}

/-- What a node of a document holds, where an alias stands for its target. -/
def held? (d : Document) : Node Nat → Option Content
  | .alias number => d.target? number >>= Node.content?
  | node => node.content?

theorem gives_content (d : Document) (node : Node Nat) :
    Gives (d.content node) (fun c => d.held? node = some c) 1 := by
  have hplain : ∀ {o : Option Content}, d.content node = readable o → d.held? node = o →
      Gives (d.content node) (fun c => d.held? node = some c) 1 := by
    rintro o hcontent hheld
    rw [hcontent, hheld]
    exact (gives_readable o).of_iff (fun _ => Iff.rfl) (Nat.zero_le 1)
  match node with
  | .scalar .. | .sequence .. | .mapping .. => exact hplain rfl rfl
  | .alias number =>
      have htarget := gives_readable (d.target? number >>= Node.content?)
      constructor
      · intro left c left' hrun
        cases left with
        | zero => cases hrun
        | succ left => exact htarget.sound hrun
      · intro c left hc hleft
        obtain ⟨left, rfl⟩ := Nat.exists_eq_add_of_le' hleft
        obtain ⟨left', hrun, hleft'⟩ := htarget.complete c left hc (Nat.zero_le left)
        exact ⟨left', hrun, by omega⟩

/-- A value that the content of a node stands for. -/
def Holds (d : Document) (P : Content → α → Prop) (node : Node Nat) (a : α) : Prop :=
  ∃ c, d.held? node = some c ∧ P c a

theorem gives_held
    {f : Content → Decoder α} {P : Content → α → Prop} {n : Nat}
    (hf : ∀ c, d.held? node = some c → Gives (f c) (P c) n) :
    Gives (d.content node >>= f) (d.Holds P node) (1 + n) :=
  (d.gives_content node).bind hf

end Document

namespace Content

/-- A scalar has its text, of whatever type and style it is. -/
def IsText : Content → String → Prop
  | .scalar _ text _, s => s = text
  | _, _ => False

/-- A scalar spells a natural number of 32 bits; what a plain one is tagged as does not matter. -/
def SpellsNatural : Content → Nat → Prop
  | .scalar tag text style, n =>
    Document.maySpellNumber tag style = true ∧ Scalar.unsigned? text = some n ∧ n < Nat.pow 2 32
  | _, _ => False

/-- A plain scalar is absent if nothing is written, or a word for that; a tag has to agree. -/
def IsNull : Content → Prop
  | .scalar tag text style =>
    style = .plain ∧
      (tag = none ∧ (text = "" ∨ isNullWord text = true) ∨
        tag.bind coreTag? = some .null ∧ isNullWord text = true)
  | _ => False

/-- Only what is plain can be absent, and what is tagged as absent has to say so. -/
def IsPresent : Content → Prop
  | .scalar tag text style =>
    style = .plain →
      ¬(tag = none ∧ (text = "" ∨ isNullWord text = true)) ∧ tag.bind coreTag? ≠ some .null
  | _ => True

theorem IsPresent.not_isNull
    {c : Content}
    (h : c.IsPresent) :
    ¬c.IsNull := by
  cases c with
  | sequence | mapping => exact id
  | scalar tag text style =>
      rintro ⟨hplain, hnothing | ⟨htag, -⟩⟩
      · exact (h hplain).1 hnothing
      · exact (h hplain).2 htag

/-- What is asked for as a value that may be left out. -/
def IsOptional (P : Content → α → Prop) (c : Content) : Option α → Prop
  | none => c.IsNull
  | some a => c.IsPresent ∧ P c a

/-- The items of a sequence stand for values, one for one; a blank scalar has no items. -/
def IsList (P : Node Nat → α → Prop) : Content → List α → Prop
  | .sequence _ items, as => List.Forall₂ P items as
  | c, as => c.isBlank = true ∧ as = []

end Content

namespace Document

variable {d : Document} {node : Node Nat} {depth : Nat} {path : Path}

theorem gives_string (d : Document) (expected : String) (path : Path) (node : Node Nat) :
    Gives (d.string expected path node) (d.Holds Content.IsText node) 1 := by
  apply gives_held (n := 0)
  intro c _
  cases c with
  | scalar tag text style => exact Gives.pure text
  | sequence | mapping => exact Content.gives_mismatch _ _ _

theorem gives_natural (d : Document) (path : Path) (node : Node Nat) :
    Gives (d.natural path node) (d.Holds Content.SpellsNatural node) 1 := by
  apply gives_held (n := 0)
  intro c _
  cases c with
  | sequence | mapping => exact Content.gives_mismatch _ _ _
  | scalar tag text style =>
      dsimp only
      split
      · next n hn =>
          have hspelled := Option.ite_none_right_eq_some.1 hn
          split
          · next hsmall =>
              refine (Gives.pure n).of_iff (fun m => ?_) (Nat.le_refl 0)
              simp only [Content.SpellsNatural, hspelled.1, hspelled.2, Option.some.injEq]
              constructor
              · rintro rfl
                exact ⟨trivial, rfl, hsmall⟩
              · rintro ⟨-, rfl, -⟩
                rfl
          · next hlarge =>
              refine (Gives.throw _).of_iff (fun m => ?_) (Nat.le_refl 0)
              simp only [Content.SpellsNatural, hspelled.1, hspelled.2, Option.some.injEq,
                false_iff]
              rintro ⟨-, rfl, hsmall⟩
              exact hlarge hsmall
      · next hnone =>
          refine (Content.gives_mismatch _ _ _).of_iff (fun m => ?_) (Nat.le_refl 0)
          simp only [Content.SpellsNatural, false_iff]
          rintro ⟨hspells, hm, -⟩
          rw [if_pos hspells, hm] at hnone
          cases hnone

/-- What is neither absent nor present is tagged as absent and says something else. -/
theorem isAbsent_cases (c : Content) :
    c.IsNull ∧ isAbsent c = pure true ∨
      c.IsPresent ∧ isAbsent c = pure false ∨
      ¬c.IsNull ∧ ¬c.IsPresent ∧ isAbsent c = unreadable := by
  cases c with
  | sequence | mapping => exact .inr (.inl ⟨trivial, rfl⟩)
  | scalar tag text style =>
      unfold isAbsent
      dsimp only
      by_cases hplain : style = .plain
      · rw [if_neg (not_not.2 hplain)]
        cases tag with
        | none =>
            by_cases hnothing : text = "" ∨ isNullWord text = true
            · have hanswer : (decide (text = "") || isNullWord text) = true := by
                simpa using hnothing
              exact .inl ⟨⟨hplain, .inl ⟨rfl, hnothing⟩⟩, by rw [hanswer]⟩
            · refine .inr (.inl ⟨fun _ => ⟨fun h => hnothing h.2, nofun⟩, ?_⟩)
              simp [not_or.1 hnothing]
        | some tag =>
            dsimp only
            split
            · next hnull =>
                split
                · next hword => exact .inl ⟨⟨hplain, .inr ⟨hnull, hword⟩⟩, rfl⟩
                · next hword =>
                    refine .inr (.inr ⟨?_, fun h => (h hplain).2 hnull, rfl⟩)
                    rintro ⟨-, ⟨htag, -⟩ | ⟨-, hsaid⟩⟩
                    · cases htag
                    · exact hword hsaid
            · next hother =>
                exact .inr (.inl ⟨fun _ => ⟨(nomatch ·.1), hother⟩, rfl⟩)
      · rw [if_pos hplain]
        exact .inr (.inl ⟨fun h => absurd h hplain, rfl⟩)

theorem run_optional
    {decode : Node Nat → Decoder α} {c : Content} {left middle : Nat}
    (h : (d.content node).run left = .ok (c, middle)) :
    (d.optional decode node).run left =
      (isAbsent c).run middle >>= fun p =>
        if p.1 then .ok (none, p.2) else (some <$> decode node).run left := by
  rw [optional]
  simp only [StateT.run_bind, StateT.run_get, pure_bind, h]
  show ((isAbsent c).run middle >>= _) = _
  congr 1
  funext p
  cases p.1 with
  | true => rfl
  | false => rw [map_eq_pure_bind]; rfl

/-- A value that may be left out; the aliases are counted once. -/
theorem gives_optional
    {decode : Node Nat → Decoder α} {P : Content → α → Prop} {n : Nat}
    (hdecode : Gives (decode node) (d.Holds P node) n) (hn : 1 ≤ n) :
    Gives (d.optional decode node) (d.Holds (Content.IsOptional P) node) n := by
  have hcontent := d.gives_content node
  have hsome := hdecode.map (f := some)
  constructor
  · intro left o left' hrun
    cases hfirst : (d.content node).run left with
    | error e =>
        rw [optional] at hrun
        simp only [StateT.run_bind, StateT.run_get, pure_bind, hfirst] at hrun
        cases hrun
    | ok p =>
        obtain ⟨c, middle⟩ := p
        have hheld := hcontent.sound hfirst
        rw [run_optional hfirst] at hrun
        rcases isAbsent_cases c with ⟨hnull, heq⟩ | ⟨hpresent, heq⟩ | ⟨-, -, heq⟩
        · rw [heq] at hrun
          cases hrun
          exact ⟨c, hheld, hnull⟩
        · rw [heq] at hrun
          obtain ⟨a, ⟨c', hheld', ha⟩, rfl⟩ := hsome.sound hrun
          rw [hheld] at hheld'
          cases hheld'
          exact ⟨c, hheld, hpresent, ha⟩
        · rw [heq] at hrun
          cases hrun
  · rintro o left ⟨c, hheld, ho⟩ hleft
    obtain ⟨middle, hfirst, hmiddle⟩ := hcontent.complete c left hheld (by omega)
    rw [run_optional hfirst]
    rcases isAbsent_cases c with ⟨hnull, heq⟩ | ⟨hpresent, heq⟩ | ⟨hnull, hpresent, heq⟩
    · rw [heq]
      cases o with
      | none => exact ⟨middle, rfl, by omega⟩
      | some a => exact absurd hnull ho.1.not_isNull
    · rw [heq]
      cases o with
      | none => exact absurd ho hpresent.not_isNull
      | some a => exact hsome.complete (some a) left ⟨a, ⟨c, hheld, ho.2⟩, rfl⟩ hleft
    · cases o with
      | none => exact absurd ho hnull
      | some a => exact absurd ho.1 hpresent

/-- A field that may be given once, in addition to what was given before. -/
theorem gives_setOnce
    {value : Decoder α} {P : α → Prop} {n : Nat}
    (path : Path) (field : String) (earlier : Option α) (hvalue : Gives value P n) :
    Gives (setOnce path field earlier value)
      (fun o => earlier = none ∧ ∃ a, P a ∧ o = some a) n := by
  rw [setOnce]
  cases earlier with
  | some a => exact (Gives.throw _).of_iff (fun o => by simp) (Nat.zero_le n)
  | none => exact (hvalue.map (f := some)).of_iff (fun o => by simp) (Nat.le_refl n)

theorem gives_list
    {item : Nat → Path → Node Nat → Decoder α} {P : Node Nat → α → Prop} {n most : Nat}
    (hitem : ∀ path node, Gives (item depth path node) (P node) n)
    (hmost : ∀ tag items, d.held? node = some (.sequence tag items) → items.length ≤ most) :
    Gives (d.list (depth + 1) path item node) (d.Holds (Content.IsList P) node) (1 + most * n) := by
  apply gives_held
  intro c hheld
  cases c with
  | sequence tag items =>
      have hitems : Gives (items.zipIdx.mapM fun e => item depth (.item e.2 :: path) e.1)
          (List.Forall₂ (fun e a => P e.1 a) items.zipIdx) (items.zipIdx.length * n) :=
        Gives.mapM fun e _ => hitem _ e.1
      refine hitems.of_iff (fun as => ?_) ?_
      · rw [← List.forall₂_map_left_iff, List.zipIdx_map_fst]
        rfl
      · rw [List.length_zipIdx]
        exact Nat.mul_le_mul_right n (hmost tag items hheld)
  | scalar | mapping =>
      dsimp only
      split
      · next hblank =>
          exact (Gives.pure []).of_iff (fun as => by simp [Content.IsList, hblank]) (Nat.zero_le _)
      · next hother =>
          exact (Content.gives_mismatch _ _ _).of_iff (fun as => by simp [Content.IsList, hother])
            (Nat.zero_le _)

/-- The fields of a mapping lead from a state to another; a blank scalar has no fields. -/
def TakesFields (d : Document) (R : σ → String → Node Nat → σ → Prop) (start : σ) :
    Content → σ → Prop
  | .mapping _ entries, t =>
    Steps (fun s entry t => ∃ name, d.Holds Content.IsText entry.1 name ∧ R s name entry.2 t)
      start entries t
  | c, t => c.isBlank = true ∧ t = start

theorem gives_fields
    {expected : String} {step : Nat → σ → String → Path → Node Nat → Decoder σ} {start : σ}
    {R : σ → String → Node Nat → σ → Prop} {n most : Nat}
    (hstep : ∀ tag entries, d.held? node = some (.mapping tag entries) → ∀ entry ∈ entries,
      ∀ s name place, Gives (step depth s name place entry.2) (R s name entry.2) n)
    (hmost : ∀ tag entries, d.held? node = some (.mapping tag entries) → entries.length ≤ most) :
    Gives (d.fields (depth + 1) path expected step start node)
      (d.Holds (TakesFields d R start) node) (1 + most * (1 + n)) := by
  apply gives_held
  intro c hheld
  cases c with
  | mapping tag entries =>
      have hentry : ∀ entry ∈ entries, ∀ s,
          Gives (d.string "field identifier" path entry.1 >>= fun name =>
              step depth s name (stepOf entry.1 :: path) entry.2)
            (fun t => ∃ name, d.Holds Content.IsText entry.1 name ∧ R s name entry.2 t)
            (1 + n) := by
        intro entry hmem s
        exact (d.gives_string _ _ _).bind fun name _ => hstep tag entries hheld entry hmem s name _
      have hentries := Gives.foldlM hentry start
      exact hentries.of_iff (fun _ => Iff.rfl)
        (Nat.mul_le_mul_right (1 + n) (hmost tag entries hheld))
  | scalar | sequence =>
      dsimp only
      split
      · next hblank =>
          exact (Gives.pure start).of_iff (fun t => by simp [TakesFields, hblank]) (Nat.zero_le _)
      · next hother =>
          exact (Content.gives_mismatch _ _ _).of_iff (fun t => by simp [TakesFields, hother])
            (Nat.zero_le _)

/-! ## How much may be read -/

/-- A document is read if its reader follows no more aliases than the document allows. -/
theorem decode_eq_ok_iff
    {decoder : Nat → Path → Node Nat → Decoder α} {P : α → Prop} {cost : Nat} {a : α}
    (h : Gives (decoder nestingLimit [] d.root) P cost)
    (hcost : P a → cost ≤ d.aliasLimit) :
    d.decode decoder = .ok a ↔ P a := by
  rw [decode]
  constructor
  · intro hdecode
    split at hdecode
    · next b left hrun =>
        cases hdecode
        exact h.sound hrun
    · split at hdecode
      · cases hdecode
      · cases hdecode
  · intro ha
    obtain ⟨left, hrun, -⟩ := h.complete a d.aliasLimit ha (hcost ha)
    rw [hrun]

theorem targets_of_ofText?
    {s : String}
    (h : ofText? s = some d) :
    d.targets = d.root.anchored := by
  rw [ofText?] at h
  obtain ⟨tokens, -, h⟩ := Option.bind_eq_some_iff.1 h
  obtain ⟨node, -, h⟩ := Option.bind_eq_some_iff.1 h
  rw [ofNode?] at h
  obtain ⟨⟨root, names⟩, -, h⟩ := Option.bind_eq_some_iff.1 h
  cases h
  rfl

end Document

namespace Node

variable {label : Type}

theorem size_pos (node : Node label) : 0 < node.size := by
  cases node <;> simp [size]

theorem length_le_itemsSize (items : List (Node label)) :
    items.length ≤ itemsSize items := by
  induction items with
  | nil => exact Nat.zero_le _
  | cons item rest ih =>
      have hitem := item.size_pos
      rw [List.length_cons, itemsSize]
      omega

theorem size_le_entriesSize
    {entries : List (Node label × Node label)} {entry : Node label × Node label}
    (h : entry ∈ entries) :
    entry.2.size ≤ entriesSize entries := by
  induction entries with
  | nil => cases h
  | cons first rest ih =>
      rw [entriesSize]
      rcases List.mem_cons.1 h with rfl | hrest
      · omega
      · have hle := ih hrest
        omega

theorem size_le_of_mem_labelled
    {p : Properties label} {node : Node label} {e : label × Node label}
    (h : e ∈ labelled p node) :
    e.2.size ≤ node.size := by
  rw [labelled] at h
  cases hanchor : p.anchor with
  | none => simp [hanchor] at h
  | some name =>
      rw [hanchor] at h
      exact Nat.le_of_eq (congrArg (fun e => e.2.size) (List.mem_singleton.1 h))

mutual

/-- A labelled node is a part of the node that it is in. -/
theorem size_le_of_mem_anchored
    {e : label × Node label} :
    ∀ {node : Node label}, e ∈ node.anchored → e.2.size ≤ node.size
  | .alias _, h => by simp [anchored] at h
  | .scalar .., h => size_le_of_mem_labelled h
  | .sequence p items, h => by
      rw [anchored, List.mem_append] at h
      rcases h with h | h
      · exact size_le_of_mem_labelled h
      · have hitems := size_le_of_mem_itemsAnchored h
        rw [size]
        omega
  | .mapping p entries, h => by
      rw [anchored, List.mem_append] at h
      rcases h with h | h
      · exact size_le_of_mem_labelled h
      · have hentries := size_le_of_mem_entriesAnchored h
        rw [size]
        omega

theorem size_le_of_mem_itemsAnchored
    {e : label × Node label} :
    ∀ {items : List (Node label)}, e ∈ itemsAnchored items → e.2.size ≤ itemsSize items
  | [], h => by simp [itemsAnchored] at h
  | item :: rest, h => by
      rw [itemsAnchored, List.mem_append] at h
      rw [itemsSize]
      rcases h with h | h
      · have hitem := size_le_of_mem_anchored h
        omega
      · have hrest := size_le_of_mem_itemsAnchored h
        omega

theorem size_le_of_mem_entriesAnchored
    {e : label × Node label} :
    ∀ {entries : List (Node label × Node label)},
      e ∈ entriesAnchored entries → e.2.size ≤ entriesSize entries
  | [], h => by simp [entriesAnchored] at h
  | (key, value) :: rest, h => by
      rw [entriesAnchored, List.mem_append, List.mem_append] at h
      rw [entriesSize]
      rcases h with h | h | h
      · have hkey := size_le_of_mem_anchored h
        omega
      · have hvalue := size_le_of_mem_anchored h
        omega
      · have hrest := size_le_of_mem_entriesAnchored h
        omega

end

end Node

namespace Document

variable {d : Document} {node : Node Nat}

/-- A node of a document holds what some part of the document is. -/
theorem exists_part_of_held?
    {c : Content}
    (htargets : d.targets = d.root.anchored) (hnode : node.size ≤ d.root.size)
    (h : d.held? node = some c) :
    ∃ part : Node Nat, part.content? = some c ∧ part.size ≤ d.root.size := by
  match node, hnode, h with
  | .scalar p text style, hnode, h => exact ⟨.scalar p text style, h, hnode⟩
  | .sequence p items, hnode, h => exact ⟨.sequence p items, h, hnode⟩
  | .mapping p entries, hnode, h => exact ⟨.mapping p entries, h, hnode⟩
  | .alias number, _, h =>
      obtain ⟨part, htarget, hcontent⟩ := Option.bind_eq_some_iff.1 h
      rw [target?, htargets] at htarget
      obtain ⟨before, after, hsplit, -⟩ := List.lookup_eq_some_iff.1 htarget
      have hmem : (number, part) ∈ d.root.anchored := by
        rw [← List.mem_reverse, hsplit]
        exact List.mem_append_right before List.mem_cons_self
      exact ⟨part, hcontent, Node.size_le_of_mem_anchored hmem⟩

theorem length_le_of_held?_sequence
    {tag : Option String} {items : List (Node Nat)}
    (htargets : d.targets = d.root.anchored) (hnode : node.size ≤ d.root.size)
    (h : d.held? node = some (.sequence tag items)) :
    items.length ≤ d.root.size := by
  obtain ⟨part, hcontent, hpart⟩ := exists_part_of_held? htargets hnode h
  cases part <;> cases hcontent
  rw [Node.size] at hpart
  have hlength := Node.length_le_itemsSize items
  omega

theorem size_le_of_held?_mapping
    {tag : Option String} {entries : List (Node Nat × Node Nat)} {entry : Node Nat × Node Nat}
    (htargets : d.targets = d.root.anchored) (hnode : node.size ≤ d.root.size)
    (h : d.held? node = some (.mapping tag entries)) (hentry : entry ∈ entries) :
    entry.2.size ≤ d.root.size := by
  obtain ⟨part, hcontent, hpart⟩ := exists_part_of_held? htargets hnode h
  cases part <;> cases hcontent
  rw [Node.size] at hpart
  have hsize := Node.size_le_entriesSize hentry
  omega

end Document

end LibraryModels.Yaml
