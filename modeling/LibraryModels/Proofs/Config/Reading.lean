import LibraryModels.Config
import LibraryModels.Proofs.Yaml.Readers
import Mathlib.Data.List.Nodup
import Mathlib.Data.List.Perm.Subperm

/-!
# What a configuration file says

A text is read as a configuration file if its document is a mapping, or nothing at all, whose keys
are known, occur once, and have values that say something for their settings; no version is
looked at.  The fields are taken one by one into a draft, which holds what the fields so far tell
about each setting.  As there are at most five of them, the aliases of a document are enough.
-/

namespace LibraryModels

open Yaml (Content Decoder Document Node Path Gives Steps)

namespace Config

/-! ## Settings -/

/-- The settings that a configuration file may give. -/
inductive Setting where
  | version
  | codeql
  | qlDir
  | queryStorageDir
  | workspaceFolders
deriving DecidableEq

/-- A text stands for the path with that text. -/
def IsPath (c : Content) (p : FilePath) : Prop :=
  c.IsText p.text

variable {d : Document} {depth : Nat} {path place : Path} {node : Node Nat}

theorem gives_pathOfNode (d : Document) (place : Path) (node : Node Nat) :
    Gives (File.pathOfNode d place node) (d.Holds IsPath node) 1 := by
  have hpath := (d.gives_string "path string" place node).map (f := FilePath.mk)
  refine hpath.of_iff (fun p => ?_) (Nat.le_refl 1)
  constructor
  · rintro ⟨s, hs, rfl⟩
    exact hs
  · intro hp
    exact ⟨p.text, hp, rfl⟩

namespace Setting

/-- The key of a setting. -/
def key : Setting → String
  | version => "version"
  | codeql => "codeql"
  | qlDir => "ql_dir"
  | queryStorageDir => "query_storage_dir"
  | workspaceFolders => "workspace_folders"

theorem mem_keys_iff {name : String} :
    name ∈ File.keys ↔ ∃ k : Setting, k.key = name := by
  constructor
  · intro h
    simp only [File.keys, List.mem_cons, List.not_mem_nil, or_false] at h
    rcases h with rfl | rfl | rfl | rfl | rfl
    · exact ⟨version, rfl⟩
    · exact ⟨codeql, rfl⟩
    · exact ⟨qlDir, rfl⟩
    · exact ⟨queryStorageDir, rfl⟩
    · exact ⟨workspaceFolders, rfl⟩
  · rintro ⟨k, rfl⟩
    cases k <;> decide

theorem key_injective {j k : Setting} (h : j.key = k.key) : j = k := by
  revert h
  cases j <;> cases k <;> decide

/-- What a file may say for a setting. -/
abbrev Value : Setting → Type
  | version => Option Nat
  | codeql | qlDir | queryStorageDir => Option FilePath
  | workspaceFolders => List FilePath

/-- A node says a value for a setting. -/
def Says (d : Document) (node : Node Nat) : (k : Setting) → k.Value → Prop
  | version, v => d.Holds (Content.IsOptional Content.SpellsNatural) node v
  | codeql, v | qlDir, v | queryStorageDir, v => d.Holds (Content.IsOptional IsPath) node v
  | workspaceFolders, v => d.Holds (Content.IsList (d.Holds IsPath)) node v

/-- Reads the value of a setting. -/
def decode (d : Document) (depth : Nat) (place : Path) (node : Node Nat) :
    (k : Setting) → Decoder k.Value
  | version => d.optional (d.natural place) node
  | codeql | qlDir | queryStorageDir => d.optional (File.pathOfNode d place) node
  | workspaceFolders => d.list depth place (fun _ place item => File.pathOfNode d place item) node

theorem gives_decode
    {most : Nat} (k : Setting)
    (hmost : ∀ tag items, d.held? node = some (.sequence tag items) → items.length ≤ most) :
    Gives (k.decode d (depth + 1) place node) (Says d node k) (1 + most) := by
  have hle : 1 ≤ 1 + most := Nat.le_add_right 1 most
  have hpath := Document.gives_optional (gives_pathOfNode d place node) (Nat.le_refl 1)
  cases k with
  | version =>
      have hversion := Document.gives_optional (d.gives_natural place node) (Nat.le_refl 1)
      exact hversion.of_iff (fun _ => Iff.rfl) hle
  | codeql => exact hpath.of_iff (fun _ => Iff.rfl) hle
  | qlDir => exact hpath.of_iff (fun _ => Iff.rfl) hle
  | queryStorageDir => exact hpath.of_iff (fun _ => Iff.rfl) hle
  | workspaceFolders =>
      have hlist : Gives
          (d.list (depth + 1) place (fun _ place item => File.pathOfNode d place item) node)
          (d.Holds (Content.IsList (d.Holds IsPath)) node) (1 + most * 1) :=
        Document.gives_list (fun place item => gives_pathOfNode d place item) hmost
      exact hlist.of_iff (fun _ => Iff.rfl) (by omega)

/-- A node says only one thing for a setting. -/
theorem Says.unique
    {k : Setting} {v w : k.Value}
    (hv : Says d node k v) (hw : Says d node k w) :
    v = w := by
  obtain ⟨most, hmost⟩ : ∃ most, ∀ tag items,
      d.held? node = some (.sequence tag items) → items.length ≤ most := by
    cases d.held? node with
    | none => exact ⟨0, nofun⟩
    | some c =>
        cases c with
        | scalar | mapping => exact ⟨0, nofun⟩
        | sequence tag items =>
            refine ⟨items.length, ?_⟩
            rintro tag' items' ⟨⟩
            exact Nat.le_refl _
  have hgives : Gives (k.decode d 1 [] node) (Says d node k) (1 + most) := gives_decode k hmost
  obtain ⟨_, hrun, -⟩ := hgives.complete v _ hv (Nat.le_refl _)
  obtain ⟨_, hrun', -⟩ := hgives.complete w _ hw (Nat.le_refl _)
  rw [hrun] at hrun'
  cases hrun'
  rfl

/-- What the fields of a file tell about a setting: the value that is said, if its key is there. -/
def Told (d : Document) (fields : List (String × Node Nat)) (k : Setting) :
    Option k.Value → Prop
  | none => k.key ∉ fields.map Prod.fst
  | some v => ∃ node, (k.key, node) ∈ fields ∧ k.Says d node v

section Told

variable {fields : List (String × Node Nat)} {k : Setting} {o o' : Option k.Value}

theorem Told.eq_none
    (h : k.Told d fields o) (hnone : k.key ∉ fields.map Prod.fst) :
    o = none := by
  cases o with
  | none => rfl
  | some v =>
      obtain ⟨node, hmem, -⟩ := h
      exact absurd (List.mem_map_of_mem hmem) hnone

theorem Told.exists_said
    (h : k.Told d fields o) (honce : (fields.map Prod.fst).Nodup) (hmem : (k.key, node) ∈ fields) :
    ∃ v, o = some v ∧ k.Says d node v := by
  cases o with
  | none => exact absurd (List.mem_map_of_mem hmem) h
  | some v =>
      obtain ⟨node', hmem', hsaid⟩ := h
      cases List.inj_on_of_nodup_map honce hmem' hmem rfl
      exact ⟨v, rfl, hsaid⟩

theorem Told.unique
    (honce : (fields.map Prod.fst).Nodup) (h : k.Told d fields o) (h' : k.Told d fields o') :
    o = o' := by
  by_cases hkey : k.key ∈ fields.map Prod.fst
  · obtain ⟨⟨_, node⟩, hmem, rfl⟩ := List.mem_map.1 hkey
    obtain ⟨v, rfl, hv⟩ := h.exists_said honce hmem
    obtain ⟨w, rfl, hw⟩ := h'.exists_said honce hmem
    rw [hv.unique hw]
  · rw [h.eq_none hkey, h'.eq_none hkey]

end Told

/-- What a setting is where nothing is said. -/
def blank : (k : Setting) → k.Value
  | version => none
  | codeql | qlDir | queryStorageDir => none
  | workspaceFolders => []

/-- The value that the fields of a file give to a setting. -/
def Given (d : Document) (fields : List (String × Node Nat)) (k : Setting) (v : k.Value) : Prop :=
  ∃ o, k.Told d fields o ∧ v = o.getD k.blank

theorem Given.unique
    {fields : List (String × Node Nat)} {k : Setting} {v w : k.Value}
    (honce : (fields.map Prod.fst).Nodup) (hv : k.Given d fields v) (hw : k.Given d fields w) :
    v = w := by
  obtain ⟨o, ho, rfl⟩ := hv
  obtain ⟨o', ho', rfl⟩ := hw
  rw [Told.unique honce ho ho']

end Setting

/-! ## Fields taken one by one -/

/-- The keys of a file are known and occur once. -/
structure WellKeyed (fields : List (String × Node Nat)) : Prop where
  known : ∀ field ∈ fields, field.1 ∈ File.keys
  once : (fields.map Prod.fst).Nodup

theorem WellKeyed.length_le
    {fields : List (String × Node Nat)}
    (h : WellKeyed fields) :
    fields.length ≤ 5 := by
  have hsubset : fields.map Prod.fst ⊆ File.keys := by
    intro name hname
    obtain ⟨field, hfield, rfl⟩ := List.mem_map.1 hname
    exact h.known field hfield
  have hlength := (List.subperm_of_subset h.once hsubset).length_le
  rwa [List.length_map] at hlength

namespace File

/-- What a file says for a setting. -/
def get (file : File) : (k : Setting) → k.Value
  | .version => file.version
  | .codeql => file.codeql
  | .qlDir => file.qlDir
  | .queryStorageDir => file.queryStorageDir
  | .workspaceFolders => file.workspaceFolders

theorem ext_get
    {file other : File}
    (h : ∀ k, file.get k = other.get k) :
    file = other := by
  cases file
  cases other
  rw [mk.injEq]
  exact ⟨h .version, h .codeql, h .qlDir, h .queryStorageDir, h .workspaceFolders⟩

namespace Draft

/-- What has been taken for a setting. -/
def get (draft : Draft) : (k : Setting) → Option k.Value
  | .version => draft.version
  | .codeql => draft.codeql
  | .qlDir => draft.qlDir
  | .queryStorageDir => draft.queryStorageDir
  | .workspaceFolders => draft.workspaceFolders

/-- The draft with the given parts. -/
def ofParts (part : (k : Setting) → Option k.Value) : Draft where
  version := part .version
  codeql := part .codeql
  qlDir := part .qlDir
  queryStorageDir := part .queryStorageDir
  workspaceFolders := part .workspaceFolders

@[simp]
theorem get_ofParts (part : (k : Setting) → Option k.Value) :
    (ofParts part).get = part := by
  funext k
  cases k <;> rfl

@[simp]
theorem ofParts_get (draft : Draft) :
    ofParts draft.get = draft := rfl

/-- A draft with another part for a setting. -/
def put (draft : Draft) (k : Setting) (o : Option k.Value) : Draft :=
  ofParts (Function.update draft.get k o)

/-- The file of a draft. -/
def file (draft : Draft) : File where
  version := draft.version.getD none
  codeql := draft.codeql.getD none
  qlDir := draft.qlDir.getD none
  queryStorageDir := draft.queryStorageDir.getD none
  workspaceFolders := draft.workspaceFolders.getD []

theorem get_file (draft : Draft) (k : Setting) :
    draft.file.get k = (draft.get k).getD k.blank := by
  cases k <;> rfl

variable {draft next : Draft} {fields : List (String × Node Nat)}

theorem add_key (draft : Draft) (k : Setting) :
    draft.add d path depth k.key place node =
      draft.put k <$> Yaml.setOnce path k.key (draft.get k) (k.decode d depth place node) := by
  cases k <;> rw [map_eq_pure_bind] <;> rfl

theorem add_unknown
    {name : String}
    (h : name ∉ keys) :
    draft.add d path depth name place node = Yaml.faultAt path (.unknownField name keys) := by
  simp only [keys, List.mem_cons, List.not_mem_nil, or_false, not_or] at h
  unfold add
  split
  · exact absurd rfl h.1
  · exact absurd rfl h.2.1
  · exact absurd rfl h.2.2.1
  · exact absurd rfl h.2.2.2.1
  · exact absurd rfl h.2.2.2.2
  · rfl

/-- A field gives a value to a setting that has none yet. -/
def Fills (d : Document) (draft : Draft) (name : String) (node : Node Nat) (next : Draft) : Prop :=
  ∃ k : Setting, k.key = name ∧ draft.get k = none ∧
    ∃ v, k.Says d node v ∧ next = draft.put k (some v)

theorem gives_add
    {most : Nat} (draft : Draft) (name : String)
    (hmost : ∀ tag items, d.held? node = some (.sequence tag items) → items.length ≤ most) :
    Gives (draft.add d path (depth + 1) name place node) (Fills d draft name node) (1 + most) := by
  by_cases hname : name ∈ keys
  · obtain ⟨k, rfl⟩ := Setting.mem_keys_iff.1 hname
    rw [add_key]
    have hvalue : Gives (k.decode d (depth + 1) place node) (k.Says d node) (1 + most) :=
      Setting.gives_decode k hmost
    have honce := Document.gives_setOnce path k.key (draft.get k) hvalue
    refine (honce.map (f := draft.put k)).of_iff (fun next => ?_) (Nat.le_refl _)
    constructor
    · rintro ⟨_, ⟨hopen, v, hsaid, rfl⟩, rfl⟩
      exact ⟨k, rfl, hopen, v, hsaid, rfl⟩
    · rintro ⟨j, hj, hopen, v, hsaid, rfl⟩
      cases Setting.key_injective hj
      exact ⟨some v, ⟨hopen, v, hsaid, rfl⟩, rfl⟩
  · rw [add_unknown hname]
    refine (Gives.throw _).of_iff (fun next => ?_) (Nat.zero_le _)
    rw [false_iff]
    rintro ⟨k, rfl, -⟩
    exact hname (Setting.mem_keys_iff.2 ⟨k, rfl⟩)

/-- A draft has taken what the fields tell, and no more. -/
def HasTaken (d : Document) (fields : List (String × Node Nat)) (draft : Draft) : Prop :=
  ∀ k : Setting, k.Told d fields (draft.get k)

theorem HasTaken.unique
    (honce : (fields.map Prod.fst).Nodup)
    (h : HasTaken d fields draft) (h' : HasTaken d fields next) :
    draft = next := by
  rw [← ofParts_get draft, ← ofParts_get next]
  congr 1
  funext k
  exact Setting.Told.unique honce (h k) (h' k)

theorem HasTaken.put
    {k : Setting} {v : k.Value}
    (h : HasTaken d fields draft) (hopen : draft.get k = none) (hsaid : k.Says d node v) :
    HasTaken d (fields ++ [(k.key, node)]) (draft.put k (some v)) := by
  intro j
  rw [Draft.put, get_ofParts]
  by_cases hj : j = k
  · subst hj
    rw [Function.update_self]
    exact ⟨node, List.mem_append_right _ (List.mem_singleton_self _), hsaid⟩
  · rw [Function.update_of_ne hj]
    have htold := h j
    match draft.get j, htold with
    | none, htold =>
        simp only [Setting.Told, List.map_append, List.mem_append] at htold ⊢
        rintro (hmem | hmem)
        · exact htold hmem
        · exact hj (Setting.key_injective (List.mem_singleton.1 hmem))
    | some w, ⟨node', hmem, hw⟩ => exact ⟨node', List.mem_append_left _ hmem, hw⟩

end Draft

end File

/-! ## Documents -/

variable {fields : List (String × Node Nat)}

/-- A field of a file is the text of a key and the node of its value. -/
def IsField (d : Document) (entry : Node Nat × Node Nat) (field : String × Node Nat) : Prop :=
  d.Holds Content.IsText entry.1 field.1 ∧ entry.2 = field.2

/-- A document is a mapping with the given fields, in order. -/
def IsMapping (d : Document) (fields : List (String × Node Nat)) : Prop :=
  ∃ tag entries, d.held? d.root = some (.mapping tag entries) ∧
    List.Forall₂ (IsField d) entries fields

/-- There is nothing in a document. -/
def IsEmpty (d : Document) : Prop :=
  ∃ c, d.held? d.root = some c ∧ c.isBlank = true

/-- The fields of a document that is a mapping or empty. -/
def HasFields (d : Document) (fields : List (String × Node Nat)) : Prop :=
  IsMapping d fields ∨ IsEmpty d ∧ fields = []

/-- What the fields give to the settings is what a file says. -/
def Describes (d : Document) (fields : List (String × Node Nat)) (file : File) : Prop :=
  ∀ k : Setting, k.Given d fields (file.get k)

theorem WellKeyed.concat
    {name : String}
    (h : WellKeyed fields) (hknown : name ∈ File.keys) (hnew : name ∉ fields.map Prod.fst) :
    WellKeyed (fields ++ [(name, node)]) where
  known field hfield := by
    rcases List.mem_append.1 hfield with hfield | hfield
    · exact h.known field hfield
    · rw [List.mem_singleton.1 hfield]
      exact hknown
  once := by
    rw [List.map_append, List.map_singleton, ← List.concat_eq_append]
    exact h.once.concat hnew

/-- From one draft to another by one entry of the root. -/
def File.Draft.TakesEntry (d : Document) (draft : File.Draft) (entry : Node Nat × Node Nat)
    (next : File.Draft) : Prop :=
  ∃ name, d.Holds Content.IsText entry.1 name ∧ draft.Fills d name entry.2 next

/--
Entries lead to the draft that has taken what their fields tell, and only there.  What has been
taken before is kept, so a key that has occurred before leads nowhere.
-/
theorem steps_iff
    {entries : List (Node Nat × Node Nat)} {draft last : File.Draft}
    (hkeyed : WellKeyed fields) (htaken : draft.HasTaken d fields) :
    Steps (File.Draft.TakesEntry d) draft entries last ↔
      ∃ more, List.Forall₂ (IsField d) entries more ∧ WellKeyed (fields ++ more) ∧
        last.HasTaken d (fields ++ more) := by
  -- on the entries, from any draft that has taken the fields before them
  induction entries generalizing fields draft with
  | nil =>
      simp only [List.forall₂_nil_left_iff, exists_eq_left, List.append_nil]
      constructor
      · rintro rfl
        exact ⟨hkeyed, htaken⟩
      · rintro ⟨-, hlast⟩
        exact hlast.unique hkeyed.once htaken
  | cons entry entries ih =>
      constructor
      · rintro ⟨next, ⟨_, hname, k, rfl, hopen, v, hsaid, rfl⟩, hrest⟩
        have hnew : k.key ∉ fields.map Prod.fst := by
          have htold := htaken k
          rwa [hopen] at htold
        have hknown := Setting.mem_keys_iff.2 ⟨k, rfl⟩
        obtain ⟨more, hmore, hkeyed', hlast⟩ :=
          (ih (hkeyed.concat hknown hnew) (htaken.put hopen hsaid)).1 hrest
        rw [List.append_assoc] at hkeyed' hlast
        exact ⟨(k.key, entry.2) :: more, .cons ⟨hname, rfl⟩ hmore, hkeyed', hlast⟩
      · rintro ⟨_, hfields, hkeyed', hlast⟩
        obtain ⟨⟨name, node⟩, more, ⟨hname, hvalue⟩, hmore, rfl⟩ :=
          List.forall₂_cons_left_iff.1 hfields
        have hmem : (name, node) ∈ fields ++ (name, node) :: more :=
          List.mem_append_right fields List.mem_cons_self
        obtain ⟨k, rfl⟩ := Setting.mem_keys_iff.1 (hkeyed'.known _ hmem)
        have hnew : k.key ∉ fields.map Prod.fst := by
          have honce := hkeyed'.once
          rw [List.map_append] at honce
          intro hkey
          exact List.disjoint_of_nodup_append honce hkey List.mem_cons_self
        have hopen := (htaken k).eq_none hnew
        obtain ⟨v, -, hsaid⟩ := (hlast k).exists_said hkeyed'.once hmem
        have hrest := (ih (hkeyed.concat (hkeyed'.known _ hmem) hnew) (htaken.put hopen hsaid)).2
          ⟨more, hmore, by rwa [List.append_assoc], by rwa [List.append_assoc]⟩
        subst hvalue
        exact ⟨_, ⟨k.key, hname, k, rfl, hopen, v, hsaid, rfl⟩, hrest⟩

/-- A draft starts out with nothing taken. -/
theorem File.Draft.hasTaken_nil (d : Document) :
    HasTaken d [] {} := by
  intro k
  cases k <;> exact List.not_mem_nil

theorem describes_iff {file : File} :
    Describes d fields file ↔
      ∃ draft : File.Draft, draft.HasTaken d fields ∧ file = draft.file := by
  constructor
  · intro h
    choose o htold hgiven using h
    refine ⟨.ofParts o, ?_, File.ext_get fun k => ?_⟩
    · intro k
      rw [File.Draft.get_ofParts]
      exact htold k
    · rw [hgiven, File.Draft.get_file, File.Draft.get_ofParts]
  · rintro ⟨draft, htaken, rfl⟩ k
    exact ⟨draft.get k, htaken k, draft.get_file k⟩

/-- The root of a document stands for a file with the values that its fields give. -/
def IsFile (d : Document) (file : File) : Prop :=
  ∃ fields, HasFields d fields ∧ WellKeyed fields ∧ Describes d fields file

theorem takesFields_iff {draft : File.Draft} :
    d.Holds (Document.TakesFields d (File.Draft.Fills d) {}) d.root draft ↔
      ∃ fields, HasFields d fields ∧ WellKeyed fields ∧ draft.HasTaken d fields := by
  have hnil : WellKeyed [] := ⟨nofun, List.nodup_nil⟩
  have hempty := File.Draft.hasTaken_nil d
  constructor
  · rintro ⟨c, hheld, htakes⟩
    cases c with
    | mapping tag entries =>
        obtain ⟨more, hmore, hkeyed, htaken⟩ := (steps_iff hnil hempty).1 htakes
        exact ⟨more, .inl ⟨tag, entries, hheld, hmore⟩, hkeyed, htaken⟩
    | scalar | sequence =>
        obtain ⟨hblank, rfl⟩ := htakes
        exact ⟨[], .inr ⟨⟨_, hheld, hblank⟩, rfl⟩, hnil, hempty⟩
  · rintro ⟨fields, ⟨tag, entries, hheld, hfields⟩ | ⟨⟨c, hheld, hblank⟩, rfl⟩, hkeyed, htaken⟩
    · exact ⟨_, hheld, (steps_iff hnil hempty).2 ⟨fields, hfields, hkeyed, htaken⟩⟩
    · refine ⟨c, hheld, ?_⟩
      cases c with
      | mapping => cases hblank
      | scalar | sequence => exact ⟨hblank, htaken.unique hkeyed.once hempty⟩

/-- How many entries the root of a document has. -/
def entryCount (d : Document) : Nat :=
  match d.held? d.root with
  | some (.mapping _ entries) => entries.length
  | _ => 0

theorem gives_ofNode
    (htargets : d.targets = d.root.anchored) :
    Gives (File.ofNode d (depth + 2) path d.root) (IsFile d)
      (1 + entryCount d * (1 + (1 + d.root.size))) := by
  have hfields : Gives
      (d.fields (depth + 2) path "struct ConfigFileV1" (File.Draft.add d path) {} d.root)
      (d.Holds (Document.TakesFields d (File.Draft.Fills d) {}) d.root)
      (1 + entryCount d * (1 + (1 + d.root.size))) := by
    apply Document.gives_fields
    · intro tag entries hheld entry hentry draft name place
      refine draft.gives_add name fun tag' items hitems => ?_
      have hsize := Document.size_le_of_held?_mapping htargets (Nat.le_refl _) hheld hentry
      exact Document.length_le_of_held?_sequence htargets hsize hitems
    · intro tag entries hheld
      simp only [entryCount, hheld, Nat.le_refl]
  have hfile := hfields.bind fun draft _ => Gives.pure draft.file
  refine hfile.of_iff (fun file => ?_) (Nat.le_refl _)
  simp only [takesFields_iff, IsFile, describes_iff]
  constructor
  · rintro ⟨draft, ⟨fields, hfields, hkeyed, htaken⟩, rfl⟩
    exact ⟨fields, hfields, hkeyed, draft, htaken, rfl⟩
  · rintro ⟨fields, hfields, hkeyed, draft, htaken, rfl⟩
    exact ⟨draft, ⟨fields, hfields, hkeyed, htaken⟩, rfl⟩

theorem entryCount_le
    (hfields : HasFields d fields) (hkeyed : WellKeyed fields) :
    entryCount d ≤ 5 := by
  rcases hfields with ⟨tag, entries, hheld, hentries⟩ | ⟨⟨c, hheld, hblank⟩, -⟩
  · rw [entryCount, hheld]
    calc
      entries.length = fields.length := hentries.length_eq
      _ ≤ 5 := hkeyed.length_le
  · cases c with
    | mapping => cases hblank
    | scalar | sequence =>
        rw [entryCount, hheld]
        exact Nat.zero_le 5

/-- A document of five entries allows more aliases than its reader follows. -/
theorem decode_eq_ok_iff
    {file : File}
    (htargets : d.targets = d.root.anchored) :
    d.decode (File.ofNode d) = .ok file ↔ IsFile d file := by
  apply Document.decode_eq_ok_iff (gives_ofNode htargets)
  rintro ⟨fields, hfields, hkeyed, -⟩
  have hcount := entryCount_le hfields hkeyed
  have hentries := Nat.mul_le_mul_right (1 + (1 + d.root.size)) hcount
  have hsize := d.root.size_pos
  rw [Document.aliasLimit]
  omega

theorem decodeText_eq_ok_iff {s : String} {file : File} :
    Yaml.decodeText File.ofNode s = .ok file ↔
      ∃ d, Document.ofText? s = some d ∧ IsFile d file := by
  rw [Yaml.decodeText]
  cases hd : Document.ofText? s with
  | none => simp
  | some d =>
      simp only [Option.some.injEq, exists_eq_left']
      exact decode_eq_ok_iff (Document.targets_of_ofText? hd)

end Config

end LibraryModels
