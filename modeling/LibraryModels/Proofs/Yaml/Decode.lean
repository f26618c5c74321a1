import LibraryModels.Proofs.Yaml.Document
import LibraryModels.Yaml.Decode

/-!
# Decoding written values

What the readers of parts of a document give for the node of a value.  Such a node is no alias, so
no reader counts anything, and the document around it does not matter.
-/

namespace LibraryModels.Yaml

open Print (styleOf)

namespace Document

variable {d : Document} {depth : Nat} {path : Path} {α σ : Type}

@[simp] theorem content_scalar (p : Properties Nat) (text : String) (style : Style) :
    d.content (.scalar p text style) = pure (.scalar p.tag text style) := rfl

@[simp] theorem content_sequence (p : Properties Nat) (items : List (Node Nat)) :
    d.content (.sequence p items) = pure (.sequence p.tag items) := rfl

@[simp] theorem content_mapping (p : Properties Nat) (entries : List (Node Nat × Node Nat)) :
    d.content (.mapping p entries) = pure (.mapping p.tag entries) := rfl

/-- A text of any style is read as a text. -/
theorem string_node (expected s : String) :
    d.string expected path (Value.string s).node = pure s := by
  simp [string, Value.node]

theorem value_string (s : String) :
    d.value depth (Value.string s).node = pure (.string s) := by
  have hvalue : scalarValue? none s (styleOf s) = some (.string s) := Print.untaggedValue?_styleOf s
  rw [Value.node, value.eq_def]
  simp [hvalue, readable, underTag]

theorem value_bool (b : Bool) :
    d.value depth (Value.bool b).node = pure (.bool b) := by
  have hvalue : scalarValue? none (boolText b) .plain = some (.bool b) := by
    cases b <;> rfl
  rw [Value.node, value.eq_def]
  simp [hvalue, readable, underTag]

/-- No text is written as the word for an absent value. -/
theorem isAbsent_styleOf (s : String) :
    isAbsent (.scalar none s (styleOf s)) = pure false := by
  have hvalue : untaggedValue? s (styleOf s) = some (.string s) := Print.untaggedValue?_styleOf s
  rw [isAbsent]
  split
  · rfl
  · next hstyle =>
      have hplain : styleOf s = .plain := not_not.1 hstyle
      have hword : ¬ (s = "" ∨ isNullWord s = true) := by
        intro h
        rw [untaggedValue?, if_pos hplain, plainValue?, if_pos h] at hvalue
        cases hvalue
      rw [not_or] at hword
      simp [hword]

/-- A text that may be absent is present, whatever it says. -/
theorem optional_string
    {decode : Node Nat → Decoder α} {a : α} {s : String}
    (h : decode (Value.string s).node = pure a) :
    d.optional decode (Value.string s).node = pure (some a) := by
  rw [optional, h, Value.node, content_scalar]
  simp only [pure_bind, isAbsent_styleOf]
  rfl

/-- A list of written items is read item by item. -/
theorem list_node
    {β : Type} (item : Nat → Path → Node Nat → Decoder α) (write : β → Value) (read : β → α)
    (items : List β) (h : ∀ x ∈ items, ∀ path, item depth path (write x).node = pure (read x)) :
    d.list (depth + 1) path item (Value.sequence (items.map write)).node =
      pure (items.map read) := by
  have hitems : ∀ k, ((Value.itemNodes (items.map write)).zipIdx k).mapM
      (fun e => item depth (.item e.2 :: path) e.1) = pure (items.map read) := by
    induction items with
    | nil => exact fun _ => rfl
    | cons x items ih =>
        intro k
        have hx := h x List.mem_cons_self (.item k :: path)
        have hrest := ih (fun y hy => h y (List.mem_cons_of_mem x hy)) (k + 1)
        simp [Value.itemNodes, hx, hrest]
  rw [Value.node, list, content_sequence, pure_bind]
  exact hitems 0

/-- The fields of a written mapping are taken in their order. -/
theorem fields_node
    {expected : String} {step : Nat → σ → String → Path → Node Nat → Decoder σ} {start : σ}
    (entries : List (String × Value)) :
    d.fields (depth + 1) path expected step start
        (Value.mapping (entries.map fun e => (.string e.1, e.2))).node =
      entries.foldlM
        (fun state e => step depth state e.1 (.field e.1 :: path) e.2.node) start := by
  rw [Value.node, fields, content_mapping, pure_bind]
  show List.foldlM _ start _ = _
  induction entries generalizing start with
  | nil => rfl
  | cons entry entries ih =>
      obtain ⟨name, v⟩ := entry
      have hname : d.string "field identifier" path (Value.string name).node = pure name :=
        string_node _ name
      have hstep : stepOf (Value.string name).node = .field name := by
        rw [Value.node]
        rfl
      simp only [List.map_cons, Value.entryNodes, List.foldlM_cons, hname, hstep, pure_bind]
      congr 1
      funext state
      exact ih

/-- A decoder that reads the root of a document decodes the document. -/
theorem decode_eq_ok
    {decoder : Nat → Path → Node Nat → Decoder α} {a : α}
    (h : decoder nestingLimit [] d.root = pure a) :
    d.decode decoder = .ok a := by
  rw [decode, h]
  rfl

end Document

end LibraryModels.Yaml
