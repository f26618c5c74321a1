import LibraryModels.Proofs.Generator.Run
import LibraryModels.Proofs.ModelStore

/-!
# What is kept of a run

A run that collects its models in a map ends with the map that later models win in, however far it
came.  That map is saved once after a run that succeeded or was cancelled, and never after another
failure.
-/

namespace LibraryModels

variable {ε τ σ : Type}

/-! ## Collecting in a map -/

namespace Generator

/-- The generator with another sink. -/
def into {υ : Type} (g : Generator ε τ) (sink : Sink υ) : Generator ε υ :=
  ⟨g.engine, sink, g.database, g.qlDir, g.storageDir⟩

theorem feed_into_map (g : Generator ε τ) (models : ModelMap)
    (deliveries : List (Kind × List Entry)) :
    (g.into Sink.map).feed models deliveries = models.extend (deliveries.flatMap Prod.snd) := by
  induction deliveries generalizing models with
  | nil => rfl
  | cons d rest ih =>
      rw [List.flatMap_cons, ModelMap.extend_append]
      exact ih (models.extend d.2)

/-- The models that were handed to the sink, in order. -/
def deliveredEntries (events : List Event) : List Entry :=
  (events.filterMap Event.delivery?).flatMap Prod.snd

/--
What a run into a map comes to: by its records and the events that it added, every signature has
the method that was delivered last for it, or else the one that it had at the start.
-/
structure Collected (g : Generator ε τ) (start : RunState ε ModelMap)
    (records : List StageRecord) (events : List Event) : Prop where
  passes : (g.into Sink.map).Passes Stage.all start records
    ((g.into Sink.map).run start).1 ((g.into Sink.map).run start).2
  events_eq : ((g.into Sink.map).run start).2.events = start.events ++ events
  deliveries_eq : events.filterMap Event.delivery? = records.filterMap StageRecord.delivery?
  get?_of_last : ∀ before k m after,
    deliveredEntries events = before ++ (k, m) :: after → (∀ e ∈ after, e.1 ≠ k) →
      ((g.into Sink.map).run start).2.sink.get? k = some m
  get?_of_absent : ∀ k, (∀ e ∈ deliveredEntries events, e.1 ≠ k) →
    ((g.into Sink.map).run start).2.sink.get? k = start.sink.get? k
  keeps : ∀ k, start.sink.get? k ≠ none → ((g.into Sink.map).run start).2.sink.get? k ≠ none

theorem exists_collected (g : Generator ε τ) (start : RunState ε ModelMap) :
    ∃ records events, g.Collected start records events := by
  obtain ⟨records, hpasses⟩ := (g.into Sink.map).exists_passes start
  have hbetween := hpasses.between
  have hsink := hbetween.sink_eq.trans (g.feed_into_map _ _)
  have hget : ∀ k, ((g.into Sink.map).run start).2.sink.get? k =
      (ModelMap.lastWrite k (deliveredEntries (records.flatMap (g.into Sink.map).stageEvents))).or
        (start.sink.get? k) := by
    intro k
    rw [hsink, ModelMap.get?_extend]
    rfl
  refine ⟨records, records.flatMap (g.into Sink.map).stageEvents, ?_⟩
  exact
    { passes := hpasses
      events_eq := hbetween.events_eq
      deliveries_eq := deliveries_eq records
      get?_of_last := by
        intro before k m after hdelivered hafter
        rw [hget, hdelivered, ModelMap.lastWrite_append_cons hafter, Option.some_or]
      get?_of_absent := by
        intro k habsent
        rw [hget, ModelMap.lastWrite_eq_none_iff.2 habsent, Option.none_or]
      keeps := by
        intro k hk hnone
        rw [hget] at hnone
        exact hk (Option.or_eq_none_iff.1 hnone).2 }

end Generator

/-! ## Saving what was collected -/

variable {save : ModelMap → σ → σ × Except StorageError Unit} {models : ModelMap}
variable {outcome : Except RunError Unit} {s t : σ}

theorem keepModels_of_failed
    {e : RunError}
    (hfailed : e ≠ .cancelled) :
    keepModels save models (.error e) s = (s, [], .error e) := by
  cases e with
  | cancelled => exact absurd rfl hfailed
  | queryCompilation | queryEngine | decode | sink | config | storage | file | json => rfl

/-- A way of saving that also lists the maps that it is called with. -/
def recording (save : ModelMap → σ → σ × Except StorageError Unit) (models : ModelMap)
    (s : σ × List ModelMap) : (σ × List ModelMap) × Except StorageError Unit :=
  (((save models s.1).1, s.2 ++ [models]), (save models s.1).2)

/-- Listing the calls changes nothing else. -/
theorem keepModels_recording (calls : List ModelMap) :
    keepModels save models outcome s =
      ((keepModels (recording save) models outcome (s, calls)).1.1,
        (keepModels (recording save) models outcome (s, calls)).2) := by
  match outcome with
  | .ok () =>
      simp only [keepModels, recording]
      obtain ⟨t, result⟩ := save models s
      cases result with
      | ok u => rfl
      | error e => rfl
  | .error e =>
      by_cases hcancelled : e = .cancelled
      · subst hcancelled
        simp only [keepModels, recording]
        obtain ⟨t, result⟩ := save models s
        cases result with
        | ok u => rfl
        | error e => rfl
      · rw [keepModels_of_failed hcancelled, keepModels_of_failed hcancelled]

/-- The warnings of a run that was cancelled, when its models are saved. -/
def savingWarnings (models : ModelMap) : Except RunError Unit → List RunWarning
  | .error .cancelled => [.savingCancelled models.size]
  | _ => []

theorem keepModels_of_saved
    (hkept : outcome = .ok () ∨ outcome = .error .cancelled)
    (hsave : save models s = (t, .ok ())) :
    keepModels save models outcome s = (t, savingWarnings models outcome, outcome) := by
  rcases hkept with rfl | rfl
  · simp only [keepModels, hsave, savingWarnings]
  · simp only [keepModels, hsave, savingWarnings]

theorem keepModels_of_unsaved
    {e : StorageError}
    (hkept : outcome = .ok () ∨ outcome = .error .cancelled)
    (hsave : save models s = (t, .error e)) :
    keepModels save models outcome s =
      (t, savingWarnings models outcome, .error (.storage e)) := by
  rcases hkept with rfl | rfl
  · simp only [keepModels, hsave, savingWarnings]
  · simp only [keepModels, hsave, savingWarnings]

/--
A run into a map and the saving after it.  The map has what was delivered, however the run ended;
it is saved once if the run succeeded or was cancelled, and what is loaded then are its models;
after another failure the file system is as it was.
-/
theorem keepModels_run
    (g : Generator ε τ) (start : RunState ε ModelMap)
    (store : ModelStore) (p : FilePath) (fs : FileSystem) :
    let run := (g.into Sink.map).run start
    let saved := store.save p run.2.sink fs
    let kept := keepModels (recording (store.save p)) run.2.sink run.1 (fs, [])
    (∃ records events, g.Collected start records events) ∧
    keepModels (store.save p) run.2.sink run.1 fs = (kept.1.1, kept.2) ∧
    (run.1 = .ok () ∨ run.1 = .error .cancelled →
      kept.1.2 = [run.2.sink] ∧
      (saved.2 = .ok () →
        kept.2.2 = run.1 ∧ ModelStore.load kept.1.1 p = (some run.2.sink.modeled, [])) ∧
      ∀ e, saved.2 = .error e → kept.2.2 = .error (.storage e)) ∧
    (∀ e, run.1 = .error e → e ≠ .cancelled →
      kept.1.2 = [] ∧ kept.1.1 = fs ∧ kept.2.2 = .error e) := by
  intro run saved kept
  refine ⟨g.exists_collected start, keepModels_recording [], ?_, ?_⟩
  · intro hkept
    rcases hsaved : saved with ⟨fs', result⟩
    have hrecorded : recording (store.save p) run.2.sink (fs, []) =
        ((fs', [run.2.sink]), result) := by
      show ((saved.1, [run.2.sink]), saved.2) = _
      rw [hsaved]
    cases result with
    | ok u =>
        have heq : kept = ((fs', [run.2.sink]), savingWarnings run.2.sink run.1, run.1) :=
          keepModels_of_saved hkept hrecorded
        rw [heq]
        refine ⟨rfl, ?_, ?_⟩
        · intro _
          exact ⟨rfl, ModelStore.load_of_save hsaved⟩
        · intro e he
          cases he
    | error e =>
        have heq : kept =
            ((fs', [run.2.sink]), savingWarnings run.2.sink run.1, .error (.storage e)) :=
          keepModels_of_unsaved hkept hrecorded
        rw [heq]
        refine ⟨rfl, ?_, ?_⟩
        · intro h
          cases h
        · intro e' he
          cases he
          rfl
  · intro e herror hfailed
    have heq : kept = ((fs, []), [], .error e) := by
      show keepModels _ _ run.1 _ = _
      rw [herror]
      exact keepModels_of_failed hfailed
    rw [heq]
    exact ⟨rfl, rfl, rfl⟩

end LibraryModels
