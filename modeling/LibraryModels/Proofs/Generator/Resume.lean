import LibraryModels.Proofs.Generator.Cancel
import LibraryModels.Proofs.Generator.Keep

/-!
# Runs that are resumed

An invocation loads the models of a file, adds those of a run, and saves the whole.  What a run
adds is an initial part of what its queries find, up to where it was cancelled.  A complete
invocation after it adds all of that again, so the file ends as if only the complete one had been
made: later models win, and a file has one text for the models in it.
-/

namespace LibraryModels

namespace Generator

variable {ε τ : Type}

/--
From the states in which they are run, the queries of some stages find these models for each kind,
or no single result set.
-/
def Finds (g : Generator ε τ) (stages : List Stage) (s : RunState ε τ)
    (found : Kind → Option (List Entry)) : Prop :=
  ∀ before stage after, stages = before ++ stage :: after →
    (g.through before s).2.cancelled = false →
      ((g.capture stage.kind stage.queryFile stage.index).run.run (g.through before s).2).1 =
        .ok (found stage.kind)

/-- The models that are found for the kinds of some stages, in order. -/
def entriesOf (found : Kind → Option (List Entry)) (stages : List Stage) : List Entry :=
  stages.flatMap fun stage => (found stage.kind).getD []

section Finding

variable {g : Generator ε τ} {stage : Stage} {stages rest : List Stage} {r : StageRecord}
variable {s t : RunState ε ModelMap} {found : Kind → Option (List Entry)}

theorem entriesOf_take_subset (n : Nat) :
    entriesOf found (stages.take n) ⊆ entriesOf found stages := by
  intro e he
  obtain ⟨stage, hstage, hentry⟩ := List.mem_flatMap.1 he
  exact List.mem_flatMap.2 ⟨stage, List.mem_of_mem_take hstage, hentry⟩

/-- A map takes everything, so a stage passes when its query is answered, and adds what was found. -/
theorem Ends.of_captured
    {entries : Option (List Entry)}
    (hends : (g.into Sink.map).Ends stage s r t) (hcaptured : r.captured = .ok entries) :
    r.error? = none ∧ t.sink = s.sink.extend (entries.getD []) := by
  have hdeliveries := (g.into Sink.map).deliveries_eq [r]
  have hsink := hends.between.sink_eq
  rw [List.flatMap_singleton] at hdeliveries
  rw [hdeliveries, feed_into_map] at hsink
  cases hends with
  | engineError | infoError | decodeError => cases hcaptured
  | skipped =>
      cases hcaptured
      exact ⟨rfl, hsink⟩
  | refused _ _ _ _ _ _ haccept hfail =>
      cases haccept
      cases hfail
  | delivered =>
      cases hcaptured
      refine ⟨rfl, hsink.trans ?_⟩
      exact congrArg s.sink.extend (List.append_nil _)

/--
A run whose queries are answered is finished or cancelled before one of its stages, and has added
what was found in the stages before.
-/
theorem Finds.through_into_map
    (hfinds : (g.into Sink.map).Finds stages s found) :
    ∃ n, ((g.into Sink.map).through stages s).2.sink =
        s.sink.extend (entriesOf found (stages.take n)) ∧
      (((g.into Sink.map).through stages s).1 = .ok () ∧ n = stages.length ∨
        ((g.into Sink.map).through stages s).1 = .error .cancelled) := by
  induction stages generalizing s with
  | nil => exact ⟨0, rfl, .inl ⟨rfl, rfl⟩⟩
  | cons stage rest ih =>
      cases hlive : s.cancelled with
      | true =>
          rw [through_of_cancelled hlive]
          exact ⟨0, rfl, .inr rfl⟩
      | false =>
          obtain ⟨r, t, hends⟩ := (g.into Sink.map).exists_ends stage s
          have hcaptured : r.captured = .ok (found stage.kind) :=
            hends.capture_eq.symm.trans (hfinds [] stage rest rfl hlive)
          obtain ⟨herror, hsink⟩ := hends.of_captured hcaptured
          have hrest : (g.into Sink.map).Finds rest t found := by
            intro before next after heq hbefore
            have hwhole := hfinds (stage :: before) next after (congrArg (stage :: ·) heq)
            rw [through_of_passed hends hlive herror] at hwhole
            exact hwhole hbefore
          obtain ⟨n, hadded, hend⟩ := ih hrest
          rw [through_of_passed hends hlive herror]
          refine ⟨n + 1, ?_, ?_⟩
          · rw [hadded, hsink, ← ModelMap.extend_append, List.take_succ_cons, entriesOf, entriesOf,
              List.flatMap_cons]
          · exact hend.imp_left fun ⟨hok, hn⟩ => ⟨hok, congrArg (· + 1) hn⟩

end Finding

end Generator

/-! ## Invocations -/

/--
What an invocation works with besides the file: a generator, whose sink is not looked at, the
state that its engine starts in, and whether cancellation was requested before.
-/
structure Invocation (ε : Type) where
  generator : Generator ε Unit
  engine : ε
  cancelled : Bool := false

namespace Invocation

variable {ε : Type}

/-- The run starts with the models of the file. -/
def start (a : Invocation ε) (p : FilePath) (fs : FileSystem) : RunState ε ModelMap where
  engine := a.engine
  sink := ModelStore.modelsOf fs p
  cancelled := a.cancelled

/-- The run adds to the models of the file. -/
def run (a : Invocation ε) (p : FilePath) (fs : FileSystem) :
    Except RunError Unit × RunState ε ModelMap :=
  (a.generator.into Sink.map).run (a.start p fs)

/-- Loads the models of a file, adds those of a run, and saves the whole. -/
def regenerate (a : Invocation ε) (store : ModelStore) (p : FilePath) (fs : FileSystem) :
    FileSystem × Except RunError Unit :=
  let kept := keepModels (store.save p) (a.run p fs).2.sink (a.run p fs).1 fs
  (kept.1, kept.2.2)

/-- The queries that are run find these models for each kind, or no single result set. -/
def Finds (a : Invocation ε) (p : FilePath) (fs : FileSystem)
    (found : Kind → Option (List Entry)) : Prop :=
  (a.generator.into Sink.map).Finds Stage.all (a.start p fs) found

/-- What the run comes to can be saved. -/
def Saves (a : Invocation ε) (store : ModelStore) (p : FilePath) (fs : FileSystem) : Prop :=
  (store.save p (a.run p fs).2.sink fs).2 = .ok ()

section Regenerating

variable {a : Invocation ε} {store : ModelStore} {p : FilePath} {fs : FileSystem}
variable {found : Kind → Option (List Entry)}

/-- A run whose queries are answered is finished or cancelled. -/
theorem Finds.result_eq
    (hfinds : a.Finds p fs found) :
    (a.run p fs).1 = .ok () ∨ (a.run p fs).1 = .error .cancelled := by
  obtain ⟨n, -, hend⟩ := hfinds.through_into_map
  exact hend.imp_left And.left

/-- An invocation saves the models of the file and those of the stages before its end. -/
theorem Finds.exists_sink_eq
    (hfinds : a.Finds p fs found) :
    ∃ n, (a.run p fs).2.sink =
      (ModelStore.modelsOf fs p).extend (Generator.entriesOf found (Stage.all.take n)) := by
  obtain ⟨n, hsink, -⟩ := hfinds.through_into_map
  exact ⟨n, hsink⟩

/-- A complete invocation saves the models of the file and all that are found. -/
theorem Finds.sink_eq
    (hfinds : a.Finds p fs found) (hcomplete : (a.run p fs).1 = .ok ()) :
    (a.run p fs).2.sink =
      (ModelStore.modelsOf fs p).extend (Generator.entriesOf found Stage.all) := by
  obtain ⟨n, hsink, ⟨-, rfl⟩ | hcancelled⟩ := hfinds.through_into_map
  · rw [List.take_length] at hsink
    exact hsink
  · cases hcomplete.symm.trans hcancelled

theorem Finds.regenerate_eq
    (hfinds : a.Finds p fs found) (hsaves : a.Saves store p fs) :
    store.save p (a.run p fs).2.sink fs = ((a.regenerate store p fs).1, .ok ()) ∧
      (a.regenerate store p fs).2 = (a.run p fs).1 := by
  unfold Saves at hsaves
  rcases hsave : store.save p (a.run p fs).2.sink fs with ⟨fs', result⟩
  rw [hsave] at hsaves
  subst hsaves
  unfold regenerate
  rw [keepModels_of_saved hfinds.result_eq hsave]
  exact ⟨rfl, rfl⟩

/--
An invocation that was cancelled at any stage, or that was finished, and a complete one after it
leave the file with the bytes that one complete invocation leaves, if the queries find the same.
-/
theorem regenerate_resumed
    {ε' ε'' : Type} {first : Invocation ε} {second : Invocation ε'} {whole : Invocation ε''}
    (hfirst : first.Finds p fs found) (hfirstSaves : first.Saves store p fs)
    (hsecond : second.Finds p (first.regenerate store p fs).1 found)
    (hsecondSaves : second.Saves store p (first.regenerate store p fs).1)
    (hsecondComplete : (second.run p (first.regenerate store p fs).1).1 = .ok ())
    (hwhole : whole.Finds p fs found) (hwholeSaves : whole.Saves store p fs)
    (hwholeComplete : (whole.run p fs).1 = .ok ()) :
    ((first.regenerate store p fs).2 = .ok () ∨
        (first.regenerate store p fs).2 = .error .cancelled) ∧
      ∃ bytes,
        (second.regenerate store p (first.regenerate store p fs).1).1.readBytes p = .ok bytes ∧
          (whole.regenerate store p fs).1.readBytes p = .ok bytes := by
  obtain ⟨hsaveFirst, hresultFirst⟩ := hfirst.regenerate_eq hfirstSaves
  obtain ⟨hsaveSecond, -⟩ := hsecond.regenerate_eq hsecondSaves
  obtain ⟨hsaveWhole, -⟩ := hwhole.regenerate_eq hwholeSaves
  obtain ⟨n, hsinkFirst⟩ := hfirst.exists_sink_eq
  -- both complete runs come to the same models
  have hsink : (second.run p (first.regenerate store p fs).1).2.sink = (whole.run p fs).2.sink := by
    rw [hsecond.sink_eq hsecondComplete, hwhole.sink_eq hwholeComplete,
      ModelStore.modelsOf_of_save hsaveFirst, hsinkFirst]
    exact ModelMap.extend_modeled_extend (ModelStore.modeled_modelsOf fs p)
      (Generator.entriesOf_take_subset n)
  refine ⟨?_, _, ModelStore.readBytes_of_save hsaveSecond, ?_⟩
  · rw [hresultFirst]
    exact hfirst.result_eq
  · rw [hsink]
    exact ModelStore.readBytes_of_save hsaveWhole

end Regenerating

/-- What every query of `answering` leaves behind. -/
def answer : Table where
  columns := []
  tuples := [[.text "p;T;true;f;();;Argument[0];ReturnValue;taint;generated"], [.boolean true]]

/-- An invocation whose queries all leave the same table, cancelled during the first one or not. -/
def answering (cancels : Bool) : Invocation Unit where
  generator :=
    { engine :=
        { run := fun _ _ _ _ => (⟨[], [], ⟨.ok ⟨"results.bqrs"⟩, cancels⟩⟩, ())
          info := fun _ _ => (⟨.ok ⟨[⟨"#select", 1, []⟩]⟩, false⟩, ())
          decode := fun _ _ _ => (⟨.ok answer, false⟩, ()) }
      sink := Sink.each fun _ _ s => s
      database := ⟨"db", "java", ⟨"/db"⟩⟩
      qlDir := ⟨"/ql"⟩
      storageDir := ⟨"/tmp"⟩ }
  engine := ()

theorem finds_answering (cancels : Bool) (p : FilePath) (fs : FileSystem) :
    (answering cancels).Finds p fs fun kind => some (Generator.entriesOfTable kind answer) := by
  intro before stage after _ _
  rfl

/-- The file system with what a run leaves that was cancelled in its first stage. -/
def interruptedFiles : FileSystem :=
  ((answering true).regenerate ⟨"java"⟩ ⟨"/db.model.yml"⟩ {}).1

theorem regenerate_resumed_answering :
    ((answering true).run ⟨"/db.model.yml"⟩ {}).1 = .error .cancelled ∧
      (answering true).Saves ⟨"java"⟩ ⟨"/db.model.yml"⟩ {} ∧
      (answering false).Saves ⟨"java"⟩ ⟨"/db.model.yml"⟩ interruptedFiles ∧
      ((answering false).run ⟨"/db.model.yml"⟩ interruptedFiles).1 = .ok () ∧
      (answering false).Saves ⟨"java"⟩ ⟨"/db.model.yml"⟩ {} ∧
      ((answering false).run ⟨"/db.model.yml"⟩ {}).1 = .ok () ∧
      ∃ bytes,
        ((answering false).regenerate ⟨"java"⟩ ⟨"/db.model.yml"⟩ interruptedFiles).1.readBytes
            ⟨"/db.model.yml"⟩ = .ok bytes ∧
          ((answering false).regenerate ⟨"java"⟩ ⟨"/db.model.yml"⟩ {}).1.readBytes
            ⟨"/db.model.yml"⟩ = .ok bytes := by
  have hfirst : (answering true).Saves ⟨"java"⟩ ⟨"/db.model.yml"⟩ {} := rfl
  have hsecond : (answering false).Saves ⟨"java"⟩ ⟨"/db.model.yml"⟩ interruptedFiles := rfl
  have hsecondComplete :
      ((answering false).run ⟨"/db.model.yml"⟩ interruptedFiles).1 = .ok () := by
    decide +kernel
  have hwhole : (answering false).Saves ⟨"java"⟩ ⟨"/db.model.yml"⟩ {} := rfl
  have hwholeComplete : ((answering false).run ⟨"/db.model.yml"⟩ {}).1 = .ok () := by
    decide +kernel
  have hresumed := regenerate_resumed (finds_answering true _ {}) hfirst
    (finds_answering false _ interruptedFiles) hsecond hsecondComplete
    (finds_answering false _ {}) hwhole hwholeComplete
  exact ⟨rfl, hfirst, hsecond, hsecondComplete, hwhole, hwholeComplete, hresumed.2⟩

end Invocation

end LibraryModels
