import LibraryModels.DataExtension.Yaml
import LibraryModels.Proofs.ModelMap.Json
import Mathlib.Data.Finset.Card
import Mathlib.Data.List.Induction

/-!
# Histories of a map

A map changes by insertion, removal and extension, or is made anew from a list of entries, a JSON
text or a document.  Every change comes down to steps that write or erase single signatures or
clear the whole map, and so a history has a log.  What the map gives for a signature is decided by
the last step of the log that concerns it.  Since a map is determined by what it gives, histories
whose logs say the same of every signature end in the same map, in the same order and with the
same texts.
-/

namespace LibraryModels

namespace ModelMap

/-! ## Changes and steps -/

/-- A change of a map. -/
inductive Change where
  | insert (g : Signature) (m : Method)
  | remove (g : Signature)
  | extend (entries : List Entry)
  | collect (entries : List Entry)
  /-- Takes the map that a text describes; a text that is refused changes nothing. -/
  | readJson (text : String)
  | load (d : DataExtension)
  /-- Loads the document that a text describes; a text that is refused changes nothing. -/
  | readYaml (text : String)

/-- A step of a change. -/
inductive Step where
  | write (g : Signature) (m : Method)
  | erase (g : Signature)
  | clear

namespace Step

variable {g : Signature}

def Concerns (g : Signature) : Step → Prop
  | .write k _ => k = g
  | .erase k => k = g
  | .clear => True

def apply (models : ModelMap) : Step → ModelMap
  | .write g m => models.insert g m
  | .erase g => models.erase g
  | .clear => empty

def writes (entries : List Entry) : List Step :=
  entries.map fun e => .write e.1 e.2

/-- Clears the map before it writes. -/
def rewrites (entries : List Entry) : List Step :=
  .clear :: writes entries

theorem foldl_writes (entries : List Entry) (models : ModelMap) :
    (writes entries).foldl apply models = models.extend entries :=
  List.foldl_map

theorem foldl_rewrites (entries : List Entry) (models : ModelMap) :
    (rewrites entries).foldl apply models = ofList entries :=
  foldl_writes entries empty

/-- A step decides what the map gives for the signatures that it concerns, and nothing else. -/
theorem get?_apply_of_not_concerns
    {s : Step} (models : ModelMap) (h : ¬ s.Concerns g) :
    (s.apply models).get? g = models.get? g := by
  rcases s with ⟨k, m⟩ | k | _
  · exact (get?_insert models).trans (if_neg fun hg => h hg.symm)
  · exact (get?_erase models).trans (if_neg fun hg => h hg.symm)
  · exact absurd trivial h

theorem get?_apply_of_concerns
    {s : Step} (models : ModelMap) (h : s.Concerns g) (m : Method) :
    (s.apply models).get? g = some m ↔ s = .write g m := by
  rcases s with ⟨k, n⟩ | k | _
  · have hk : k = g := h
    rw [apply, get?_insert, if_pos hk.symm, hk]
    simp
  · have hk : k = g := h
    rw [apply, get?_erase, if_pos hk.symm]
    simp
  · rw [apply, get?_empty]
    simp

end Step

namespace Change

def apply (models : ModelMap) : Change → ModelMap
  | .insert g m => (models.replace g m).2
  | .remove g => (models.remove g).2
  | .extend entries => models.extend entries
  | .collect entries => ModelMap.collect entries
  | .readJson text => (ofJsonText text).toOption.getD models
  | .load d => d.toModels
  | .readYaml text => ((DataExtension.ofYamlText text).toOption.map (·.toModels)).getD models

def steps : Change → List Step
  | .insert g m => [.write g m]
  | .remove g => [.erase g]
  | .extend entries => Step.writes entries
  | .collect entries => Step.rewrites entries
  | .readJson text => ((entriesOfJsonText text).toOption.map Step.rewrites).getD []
  | .load d => Step.rewrites d.entries
  | .readYaml text =>
    ((DataExtension.ofYamlText text).toOption.map fun d => Step.rewrites d.entries).getD []

theorem apply_eq (change : Change) (models : ModelMap) :
    change.apply models = change.steps.foldl Step.apply models := by
  rcases change with _ | _ | entries | entries | text | d | text
  case insert => rfl
  case remove => rfl
  case extend => exact (Step.foldl_writes entries models).symm
  case collect =>
    rw [apply, steps, Step.foldl_rewrites]
    exact collect_eq_ofList entries
  case readJson =>
    rw [apply, steps, ofJsonText_eq]
    rcases entriesOfJsonText text with _ | entries
    · rfl
    · exact (Step.foldl_rewrites entries models).symm
  case load => exact (Step.foldl_rewrites d.entries models).symm
  case readYaml =>
    rw [apply, steps]
    rcases DataExtension.ofYamlText text with _ | d
    · rfl
    · exact (Step.foldl_rewrites d.entries models).symm

end Change

/-! ## Logs -/

variable {g : Signature} {m : Method} {history : List Change}

/-- The map after the changes of a history, which starts with the empty map. -/
def run (history : List Change) : ModelMap :=
  history.foldl Change.apply empty

def log (history : List Change) : List Step :=
  history.flatMap Change.steps

theorem run_eq (history : List Change) :
    run history = (log history).foldl Step.apply empty := by
  rw [run, log, List.foldl_flatMap]
  congr
  funext models change
  exact change.apply_eq models

theorem run_append (before after : List Change) :
    run (before ++ after) = after.foldl Change.apply (run before) :=
  List.foldl_append

/-- `m` is written for `g`, and no later step concerns `g`. -/
def WrittenLast (steps : List Step) (g : Signature) (m : Method) : Prop :=
  ∃ before after, steps = before ++ .write g m :: after ∧ ∀ s ∈ after, ¬ s.Concerns g

theorem not_writtenLast_nil : ¬ WrittenLast [] g m := by
  rintro ⟨before, after, heq, -⟩
  simp at heq

theorem writtenLast_concat_iff
    {steps : List Step} {s : Step} :
    WrittenLast (steps ++ [s]) g m ↔
      s = .write g m ∨ (¬ s.Concerns g ∧ WrittenLast steps g m) := by
  constructor
  · rintro ⟨before, after, heq, hafter⟩
    rcases List.eq_nil_or_concat' after with rfl | ⟨after, last, rfl⟩
    · obtain ⟨-, hs⟩ := List.append_inj' heq rfl
      exact .inl (List.cons.inj hs).1
    · rw [← List.cons_append, ← List.append_assoc] at heq
      obtain ⟨hsteps, hs⟩ := List.append_inj' heq rfl
      obtain ⟨rfl, -⟩ := List.cons.inj hs
      rw [List.forall_mem_append] at hafter
      exact .inr ⟨hafter.2 s List.mem_cons_self, before, after, hsteps, hafter.1⟩
  · rintro (rfl | ⟨hs, before, after, rfl, hafter⟩)
    · exact ⟨steps, [], rfl, fun s hs => nomatch hs⟩
    · refine ⟨before, after ++ [s], by simp, ?_⟩
      intro t ht
      rcases List.mem_append.1 ht with ht | ht
      · exact hafter t ht
      · rwa [List.mem_singleton.1 ht]

/-- The last step that concerns a signature decides what the map gives for it. -/
theorem get?_foldl_eq_some_iff (steps : List Step) :
    (steps.foldl Step.apply empty).get? g = some m ↔ WrittenLast steps g m := by
  -- from the end of the log, as a step overrules those before it
  induction steps using List.reverseRecOn with
  | nil =>
      refine ⟨fun h => ?_, fun h => absurd h not_writtenLast_nil⟩
      cases h
  | append_singleton steps s ih =>
      rw [List.foldl_append, List.foldl_cons, List.foldl_nil, writtenLast_concat_iff]
      by_cases hs : s.Concerns g
      · rw [Step.get?_apply_of_concerns _ hs]
        exact ⟨.inl, fun h => h.resolve_right fun h => h.1 hs⟩
      · have hwrite : s ≠ .write g m := by
          rintro rfl
          exact hs rfl
        rw [Step.get?_apply_of_not_concerns _ hs, ih]
        exact ⟨fun h => .inr ⟨hs, h⟩, fun h => (h.resolve_left hwrite).2⟩

theorem get?_run_eq_some_iff :
    (run history).get? g = some m ↔ WrittenLast (log history) g m := by
  rw [run_eq, get?_foldl_eq_some_iff]

/-! ## What a history leaves -/

theorem pairwise_precedes (models : ModelMap) :
    models.toList.Pairwise fun a b => a.1.Precedes b.1 :=
  models.ascending.imp Signature.lt_iff_precedes.1

/-- There are as many entries as signatures that the map gives something for. -/
theorem exists_card_eq_size (models : ModelMap) :
    ∃ written : Finset Signature, written.card = models.size ∧
      ∀ g, g ∈ written ↔ ∃ m, models.get? g = some m := by
  refine ⟨(models.entries.map Prod.fst).toFinset, ?_, ?_⟩
  · rw [List.toFinset_card_of_nodup models.ascending.nodup_map_fst, List.length_map, size]
  · intro g
    simp [get?_eq_some_iff]

/-- What holds of the map that a history leaves. -/
structure Canonical (history : List Change) : Prop where
  ascending : (run history).toList.Pairwise fun a b => a.1.Precedes b.1
  wellFormed : ∀ e ∈ (run history).toList,
    Signature.WellFormed e.1.package e.1.typeName e.1.name e.1.parameters
  size_eq : (run history).size = (run history).toList.length
  card : ∃ written : Finset Signature, written.card = (run history).size ∧
    ∀ g, g ∈ written ↔ ∃ m, (run history).get? g = some m
  mem_iff : ∀ g m, (g, m) ∈ (run history).toList ↔ (run history).get? g = some m
  get?_iff : ∀ g m, (run history).get? g = some m ↔ WrittenLast (log history) g m
  replace_eq : ∀ g m, (run history).replace g m =
    ((run history).get? g, run (history ++ [.insert g m]))
  remove_eq : ∀ g, (run history).remove g = ((run history).get? g, run (history ++ [.remove g]))
  collect_eq : ∀ entries, entries.Perm (run history).toList → collect entries = run history

theorem canonical (history : List Change) : Canonical history where
  ascending := pairwise_precedes (run history)
  wellFormed e _ := e.1.wellFormed
  size_eq := rfl
  card := exists_card_eq_size (run history)
  mem_iff _ _ := get?_eq_some_iff.symm
  get?_iff _ _ := get?_run_eq_some_iff
  replace_eq g m := by
    rw [run_append]
    rfl
  remove_eq g := by
    rw [run_append]
    rfl
  collect_eq entries hperm := by
    rw [collect_eq_ofList]
    exact ofList_eq_of_mem_iff fun _ => hperm.mem_iff

/-- Insertion one by one, extension and collection of a list come to the same. -/
theorem run_append_inserts (history : List Change) (entries : List Entry) :
    run (history ++ entries.map fun e => .insert e.1 e.2) = run (history ++ [.extend entries]) := by
  rw [run_append, run_append, List.foldl_map]
  rfl

theorem run_extend (entries : List Entry) :
    run [.extend entries] = run [.collect entries] :=
  (collect_eq_ofList entries).symm

theorem run_eq_of_writtenLast_iff
    {other : List Change}
    (h : ∀ g m, WrittenLast (log history) g m ↔ WrittenLast (log other) g m) :
    run history = run other := by
  refine ext_get? fun g => ?_
  ext m
  rw [get?_run_eq_some_iff, get?_run_eq_some_iff, h g m]

/--
Every history leaves a canonical map, whichever way its entries were written; maps that give the
same for every signature are equal, and histories that write the same last leave the same map with
the same texts.
-/
theorem histories_are_canonical :
    (∀ history, Canonical history) ∧
      (∀ history entries,
        run (history ++ entries.map fun e => .insert e.1 e.2) =
          run (history ++ [.extend entries])) ∧
      (∀ entries, run [.extend entries] = run [.collect entries]) ∧
      (∀ a b : ModelMap, (∀ g, a.get? g = b.get? g) → a = b) ∧
      ∀ a b : List Change, (∀ g m, WrittenLast (log a) g m ↔ WrittenLast (log b) g m) →
        (run a).toList = (run b).toList ∧ (run a).jsonText = (run b).jsonText ∧
          ∀ language, (DataExtension.ofModels language (run a)).yamlText =
            (DataExtension.ofModels language (run b)).yamlText := by
  refine ⟨canonical, run_append_inserts, run_extend, fun _ _ => ext_get?, ?_⟩
  intro a b h
  rw [run_eq_of_writtenLast_iff h]
  exact ⟨rfl, rfl, fun _ => rfl⟩

end ModelMap

end LibraryModels
