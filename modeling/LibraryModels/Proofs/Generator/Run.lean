import LibraryModels.Proofs.DataExtension
import LibraryModels.Proofs.FilePath
import LibraryModels.Proofs.Generator.Stage
import Mathlib.Data.List.Nodup

/-!
# A run as the records of its stages

A run is described by one record for each stage that it began, in order.  `Passes` follows the
stages and says where a run stops: after the last stage, before a stage because cancellation was
requested, or at the first stage that fails.  Every run has such a description, and what the run
showed and how it ended are read off the records by induction on it.
-/

namespace LibraryModels

/-- A run begins with summaries and ends with neutral models. -/
theorem Stage.all_eq :
    Stage.all =
      [⟨0, .summary, "CaptureSummaryModels.ql"⟩, ⟨1, .sink, "CaptureSinkModels.ql"⟩,
        ⟨2, .source, "CaptureSourceModels.ql"⟩, ⟨3, .neutral, "CaptureNeutralModels.ql"⟩] :=
  rfl

namespace Generator

variable {ε τ : Type}
variable {g : Generator ε τ} {stages : List Stage} {records : List StageRecord}
variable {s t : RunState ε τ} {result : Except RunError Unit}

/-- From a state a run of some stages has these records, this result and this last state. -/
inductive Passes (g : Generator ε τ) : List Stage → RunState ε τ → List StageRecord →
    Except RunError Unit → RunState ε τ → Prop
  | finished {s : RunState ε τ} :
      Passes g [] s [] (.ok ()) s
  | cancelled {stage : Stage} {rest : List Stage} {s : RunState ε τ}
      (hcancelled : s.cancelled = true) :
      Passes g (stage :: rest) s [] (.error .cancelled) s
  | failed {stage : Stage} {rest : List Stage} {s t : RunState ε τ} {r : StageRecord}
      {e : RunError}
      (hlive : s.cancelled = false) (hends : g.Ends stage s r t) (herror : r.error? = some e) :
      Passes g (stage :: rest) s [r] (.error e) t
  | passed {stage : Stage} {rest : List Stage} {s t u : RunState ε τ} {r : StageRecord}
      {records : List StageRecord} {result : Except RunError Unit}
      (hlive : s.cancelled = false) (hends : g.Ends stage s r t) (herror : r.error? = none)
      (hrest : Passes g rest t records result u) :
      Passes g (stage :: rest) s (r :: records) result u

/-! ## Running some stages -/

/-- The result of running some stages one after the other, and the state that they leave. -/
def through (g : Generator ε τ) (stages : List Stage) (s : RunState ε τ) :
    Except RunError Unit × RunState ε τ :=
  (stages.forM g.runStage).run.run s

section Through

variable {stage : Stage} {rest : List Stage} {r : StageRecord}

theorem through_nil : g.through [] s = (.ok (), s) := rfl

theorem through_of_cancelled
    (hcancelled : s.cancelled = true) :
    g.through (stage :: rest) s = (.error .cancelled, s) :=
  RunM.run_bind_of_error (run_runStage_of_cancelled hcancelled)

theorem through_of_failed
    {e : RunError}
    (hends : g.Ends stage s r t) (hlive : s.cancelled = false) (herror : r.error? = some e) :
    g.through (stage :: rest) s = (.error e, t) := by
  have hrun := hends.run_eq hlive
  rw [stageResult, herror] at hrun
  exact RunM.run_bind_of_error hrun

theorem through_of_passed
    (hends : g.Ends stage s r t) (hlive : s.cancelled = false) (herror : r.error? = none) :
    g.through (stage :: rest) s = g.through rest t := by
  have hrun := hends.run_eq hlive
  rw [stageResult, herror] at hrun
  exact RunM.run_bind_of_ok hrun

end Through

/-! ## Every run has records -/

theorem exists_passes_through (g : Generator ε τ) (stages : List Stage) (s : RunState ε τ) :
    ∃ records, g.Passes stages s records (g.through stages s).1 (g.through stages s).2 := by
  -- on the stages that are left, from any state, since each stage leaves one of its own
  induction stages generalizing s with
  | nil => exact ⟨[], .finished⟩
  | cons stage rest ih =>
      cases hlive : s.cancelled with
      | true =>
          rw [through_of_cancelled hlive]
          exact ⟨[], .cancelled hlive⟩
      | false =>
          obtain ⟨r, t, hends⟩ := g.exists_ends stage s
          cases herror : r.error? with
          | some e =>
              rw [through_of_failed hends hlive herror]
              exact ⟨[r], .failed hlive hends herror⟩
          | none =>
              rw [through_of_passed hends hlive herror]
              obtain ⟨records, hrest⟩ := ih t
              exact ⟨r :: records, .passed hlive hends herror hrest⟩

theorem exists_passes (g : Generator ε τ) (start : RunState ε τ) :
    ∃ records, g.Passes Stage.all start records (g.run start).1 (g.run start).2 :=
  g.exists_passes_through Stage.all start

/-! ## What the records say -/

namespace Passes

theorem between
    (h : g.Passes stages s records result t) :
    Between g s t (records.flatMap g.stageEvents) := by
  induction h with
  | finished => exact .refl
  | cancelled _ => exact .refl
  | failed _ hends _ =>
      rw [List.flatMap_singleton]
      exact hends.between
  | passed _ hends _ _ ih =>
      rw [List.flatMap_cons]
      exact hends.between.trans ih

theorem stages_initial
    (h : g.Passes stages s records result t) :
    records.map StageRecord.stage <+: stages := by
  induction h with
  | finished => exact List.prefix_rfl
  | cancelled _ => exact List.nil_prefix
  | failed _ hends _ =>
      rw [List.map_singleton, hends.stage_eq]
      exact List.prefix_append [_] _
  | passed _ hends _ _ ih =>
      rw [List.map_cons, hends.stage_eq]
      exact (List.prefix_cons_inj _).2 ih

/-- Every record of a run is of a stage that ended so from some state. -/
theorem exists_ends_of_mem
    {r : StageRecord}
    (h : g.Passes stages s records result t) (hr : r ∈ records) :
    ∃ stage s t, g.Ends stage s r t := by
  induction h with
  | finished => cases hr
  | cancelled _ => cases hr
  | failed _ hends _ =>
      rw [List.mem_singleton.1 hr]
      exact ⟨_, _, _, hends⟩
  | passed _ hends _ _ ih =>
      rcases List.mem_cons.1 hr with heq | hmem
      · rw [heq]
        exact ⟨_, _, _, hends⟩
      · exact ih hmem

/-- Only the last stage of a run can have failed. -/
theorem error?_eq_none_of_dropLast
    (h : g.Passes stages s records result t) :
    ∀ r ∈ records.dropLast, r.error? = none := by
  induction h with
  | finished => simp
  | cancelled _ => simp
  | failed _ _ _ => simp
  | @passed _ _ _ _ _ r records _ _ _ herror _ ih =>
      intro r' hr'
      cases records with
      | nil => simp at hr'
      | cons first others =>
          rw [List.dropLast_cons_cons] at hr'
          rcases List.mem_cons.1 hr' with heq | hmem
          · rw [heq]
            exact herror
          · exact ih r' hmem

/-- A run succeeds when every stage was run and none of them failed. -/
theorem eq_ok_iff
    (h : g.Passes stages s records result t) :
    result = .ok () ↔
      records.map StageRecord.stage = stages ∧ ∀ r ∈ records, r.error? = none := by
  induction h with
  | finished => simp
  | cancelled _ => simp
  | failed _ _ herror => simp [herror]
  | passed _ hends herror _ ih =>
      rw [ih, List.map_cons, hends.stage_eq, List.forall_mem_cons]
      constructor
      · rintro ⟨hstages, hnone⟩
        exact ⟨by rw [hstages], herror, hnone⟩
      · rintro ⟨hstages, _, hnone⟩
        exact ⟨(List.cons.inj hstages).2, hnone⟩

/-- Without a request to cancel a run fails as the first stage that failed. -/
theorem eq_error_iff
    (h : g.Passes stages s records result t) (hlive : t.cancelled = false) {e : RunError} :
    result = .error e ↔ records.findSome? StageRecord.error? = some e := by
  induction h with
  | finished => simp
  | cancelled hcancelled =>
      rw [hlive] at hcancelled
      cases hcancelled
  | failed _ _ herror => simp [herror]
  | passed _ _ herror _ ih =>
      rw [ih hlive, List.findSome?_cons, herror]

/-- At most one stage of a run fails. -/
theorem findSome?_eq_some_of_mem
    {r : StageRecord} {e : RunError}
    (h : g.Passes stages s records result t) (hr : r ∈ records) (herror : r.error? = some e) :
    records.findSome? StageRecord.error? = some e := by
  induction h with
  | finished => cases hr
  | cancelled _ => cases hr
  | failed _ _ _ =>
      rw [← List.mem_singleton.1 hr, List.findSome?_singleton]
      exact herror
  | passed _ _ hpassed _ ih =>
      rw [List.findSome?_cons, hpassed]
      rcases List.mem_cons.1 hr with heq | hmem
      · rw [heq, hpassed] at herror
        cases herror
      · exact ih hmem

/-- Without a request to cancel only a failure keeps a run from going on to its end. -/
theorem stages_eq_of_no_error
    (h : g.Passes stages s records result t) (hlive : t.cancelled = false)
    (hnone : ∀ r ∈ records, r.error? = none) :
    records.map StageRecord.stage = stages := by
  cases result with
  | ok u => exact (h.eq_ok_iff.1 rfl).1
  | error e =>
      have hfirst := (h.eq_error_iff hlive).1 rfl
      obtain ⟨r, hr, herror⟩ := List.exists_of_findSome?_eq_some hfirst
      rw [hnone r hr] at herror
      cases herror

end Passes

/-! ## What the events say -/

section Projection

variable {α : Type} {f : Event → Option α} {pick : StageRecord → Option α}

theorem filterMap_flatMap_stageEvents
    (h : ∀ r, (g.stageEvents r).filterMap f = (pick r).toList) (records : List StageRecord) :
    (records.flatMap g.stageEvents).filterMap f = records.filterMap pick := by
  rw [List.filterMap_flatMap, List.filterMap_eq_flatMap_toList]
  have hpick : (fun r => (g.stageEvents r).filterMap f) = fun r => (pick r).toList := funext h
  rw [hpick]

end Projection

theorem queries_eq (g : Generator ε τ) (records : List StageRecord) :
    (records.flatMap g.stageEvents).filterMap Event.query? =
      records.map fun r => g.query r.stage := by
  rw [← List.filterMap_eq_map']
  apply filterMap_flatMap_stageEvents
  intro r
  rw [filterMap_stageEvents (fun _ => rfl) (fun _ => rfl) fun _ => rfl]
  simp [Event.query?]

theorem decodes_eq (records : List StageRecord) :
    (records.flatMap g.stageEvents).filterMap Event.decode? =
      records.filterMap StageRecord.decode? := by
  apply filterMap_flatMap_stageEvents
  intro r
  have hpair : (r.decode?.bind fun d => Event.decode? (.decode d.1 d.2)) = r.decode? :=
    Option.bind_fun_some _
  rw [filterMap_stageEvents (fun _ => rfl) (fun _ => rfl) fun _ => rfl, hpair]
  simp [Event.decode?]

theorem deliveries_eq (records : List StageRecord) :
    (records.flatMap g.stageEvents).filterMap Event.delivery? =
      records.filterMap StageRecord.delivery? := by
  apply filterMap_flatMap_stageEvents
  intro r
  have hpair : (r.delivery?.bind fun d => Event.delivery? (.accept d.1 d.2)) = r.delivery? :=
    Option.bind_fun_some _
  rw [filterMap_stageEvents (fun _ => rfl) (fun _ => rfl) fun _ => rfl, hpair]
  simp [Event.delivery?]

theorem progress_eq (records : List StageRecord) :
    (records.flatMap g.stageEvents).filterMap Event.progress? =
      records.flatMap StageRecord.progress := by
  rw [List.filterMap_flatMap]
  exact congrArg (records.flatMap ·) (funext progress_stageEvents)

/-- The four stages have four queries. -/
theorem nodup_queries (g : Generator ε τ) :
    (Stage.all.map g.query).Nodup := by
  have hfiles : (Stage.all.map Stage.queryFile).Nodup := by decide
  have hrelative : ∀ stage ∈ Stage.all, FilePath.isAbsolute ⟨stage.queryFile⟩ = false := by decide
  have hstages : Stage.all.Nodup := List.Nodup.of_map _ hfiles
  apply List.Nodup.map_on _ hstages
  intro a ha b hb hab
  have hpath : a.path g.qlDir g.database.language = b.path g.qlDir g.database.language :=
    congrArg Query.path hab
  have hfile : a.queryFile = b.queryFile :=
    (FilePath.entry_inj (hrelative a ha) (hrelative b hb)).1 hpath
  exact List.inj_on_of_nodup_map hfiles ha hb hfile

theorem map_query (g : Generator ε τ) (records : List StageRecord) :
    (records.map fun r => g.query r.stage) = (records.map StageRecord.stage).map g.query := by
  rw [List.map_map]
  rfl

theorem nodup_queries_of_initial
    (h : records.map StageRecord.stage <+: Stage.all) :
    (records.map fun r => g.query r.stage).Nodup := by
  rw [map_query]
  exact g.nodup_queries.sublist (h.sublist.map g.query)

/-! ## The protocol of a run -/

/-- The texts in the first cells of the tuples that have one there. -/
def firstTexts (table : Table) : List String :=
  table.tuples.filterMap fun tuple => tuple.head?.bind Cell.text?

theorem entriesOfTable_eq (kind : Kind) (table : Table) :
    entriesOfTable kind table = (firstTexts table).filterMap (Row.ofTuple? kind) := by
  rw [firstTexts, List.filterMap_filterMap, entriesOfTable]
  congr 1
  funext tuple
  cases tuple with
  | nil => rfl
  | cons cell rest => rfl

theorem kind?_of_mem_entriesOfTable
    {kind : Kind} {table : Table} {e : Entry}
    (h : e ∈ entriesOfTable kind table) :
    e.2.kind? = some kind := by
  rw [entriesOfTable_eq] at h
  obtain ⟨raw, _, hread⟩ := List.mem_filterMap.1 h
  exact Row.read_kind? hread

theorem models_of_delivery?
    {r : StageRecord} {kind : Kind} {results : List Entry}
    (h : r.delivery? = some (kind, results)) :
    kind = r.stage.kind ∧
      (∃ table, r.table? = some table ∧
        results = (firstTexts table).filterMap (Row.ofTuple? kind)) ∧
      ∀ e ∈ results, e.2.kind? = some kind := by
  obtain ⟨table, htable, hpair⟩ := Option.map_eq_some_iff.1 h
  cases hpair
  refine ⟨rfl, ⟨table, htable, entriesOfTable_eq _ table⟩, ?_⟩
  intro e he
  exact kind?_of_mem_entriesOfTable he

/--
What a run of some stages shows when it is not cancelled: the records of those that it began, by
the answers of the engine and of the sink, and the events that it added.
-/
structure Transcript (g : Generator ε τ) (stages : List Stage) (start : RunState ε τ)
    (records : List StageRecord) (events : List Event) : Prop where
  /-- The records follow the answers, stage after stage. -/
  passes : g.Passes stages start records (g.run start).1 (g.run start).2
  events_eq : (g.run start).2.events = start.events ++ events
  stages_initial : records.map StageRecord.stage <+: stages
  queries_eq : events.filterMap Event.query? = records.map fun r => g.query r.stage
  queries_initial : events.filterMap Event.query? <+: stages.map g.query
  nodup_queries : (events.filterMap Event.query?).Nodup
  decodes_eq : events.filterMap Event.decode? = records.filterMap StageRecord.decode?
  /-- The sink is called for the stages in which a table was read, and for no others. -/
  deliveries_eq : events.filterMap Event.delivery? = records.filterMap StageRecord.delivery?
  /-- The sink receives every model that a row describes, in order, and all are of one kind. -/
  models : ∀ r ∈ records, ∀ kind results, r.delivery? = some (kind, results) →
    kind = r.stage.kind ∧
      (∃ table, r.table? = some table ∧
        results = (firstTexts table).filterMap (Row.ofTuple? kind)) ∧
      ∀ e ∈ results, e.2.kind? = some kind
  /-- A stage without a single result set asks for no table and reaches no sink. -/
  skipped : ∀ r ∈ records, ∀ path count, r.ending = .skipped path count →
    count ≠ 1 ∧ r.decode? = none ∧ r.delivery? = none ∧ r.error? = none
  /-- No stage is begun after one that failed. -/
  stops : ∀ r ∈ records.dropLast, r.error? = none
  /-- A run goes on to its end unless a stage fails. -/
  continues : (∀ r ∈ records, r.error? = none) → records.map StageRecord.stage = stages
  ok_iff : (g.run start).1 = .ok () ↔
    records.map StageRecord.stage = stages ∧ ∀ r ∈ records, r.error? = none
  error_iff : ∀ e, (g.run start).1 = .error e ↔
    records.findSome? StageRecord.error? = some e

/--
The stages for summaries, sinks, sources and neutral models run in this order, and each of them
hands over the models that its table describes; the first failure of the engine or of the sink ends
the run and is its result.
-/
theorem run_protocol
    (g : Generator ε τ) (start : RunState ε τ)
    (hquiet : (g.run start).2.cancelled = false) :
    ∃ records events, g.Transcript
      [⟨0, .summary, "CaptureSummaryModels.ql"⟩, ⟨1, .sink, "CaptureSinkModels.ql"⟩,
        ⟨2, .source, "CaptureSourceModels.ql"⟩, ⟨3, .neutral, "CaptureNeutralModels.ql"⟩]
      start records events := by
  obtain ⟨records, hpasses⟩ := g.exists_passes start
  have hqueries := g.queries_eq records
  have hinitial := hpasses.stages_initial
  rw [← Stage.all_eq]
  refine ⟨records, records.flatMap g.stageEvents, ?_⟩
  exact
    { passes := hpasses
      events_eq := hpasses.between.events_eq
      stages_initial := hinitial
      queries_eq := hqueries
      queries_initial := by
        rw [hqueries, map_query]
        exact hinitial.map g.query
      nodup_queries := by
        rw [hqueries]
        exact nodup_queries_of_initial hinitial
      decodes_eq := decodes_eq records
      deliveries_eq := deliveries_eq records
      models := by
        intro r _ kind results hdelivery
        exact models_of_delivery? hdelivery
      skipped := by
        intro r hr path count hending
        obtain ⟨stage, s, t, hends⟩ := hpasses.exists_ends_of_mem hr
        exact ⟨hends.count_ne_one hending, StageRecord.calls_of_skipped hending⟩
      stops := hpasses.error?_eq_none_of_dropLast
      continues := hpasses.stages_eq_of_no_error hquiet
      ok_iff := hpasses.eq_ok_iff
      error_iff := fun _ => hpasses.eq_error_iff hquiet }

/-- A run in which a table is read, a stage is skipped, and the third query fails. -/
def failing : Generator Nat (List (Kind × List Entry)) where
  engine :=
    { run := fun _ _ _ n =>
        (⟨[⟨250, "half"⟩], [],
          ⟨if n < 2 then .ok ⟨"results.bqrs"⟩ else .error (.queryEngine "out of memory"), false⟩⟩,
          n + 1)
      info := fun _ n =>
        (⟨.ok ⟨List.replicate n ⟨"#select", 1, []⟩⟩, false⟩, n)
      decode := fun _ _ n =>
        (⟨.ok ⟨[], [[.text "p;T;true;f;();;Argument[0];ReturnValue;taint;generated"],
          [.boolean true]]⟩, false⟩, n) }
  sink := Sink.channel
  database := ⟨"db", "java", ⟨"/db"⟩⟩
  qlDir := ⟨"/ql"⟩
  storageDir := ⟨"/tmp"⟩

theorem run_protocol_failing :
    (failing.run ⟨0, [], false, []⟩).2.cancelled = false ∧
      ∃ records events, failing.Transcript
        [⟨0, .summary, "CaptureSummaryModels.ql"⟩, ⟨1, .sink, "CaptureSinkModels.ql"⟩,
          ⟨2, .source, "CaptureSourceModels.ql"⟩, ⟨3, .neutral, "CaptureNeutralModels.ql"⟩]
        ⟨0, [], false, []⟩ records events :=
  ⟨rfl, run_protocol failing ⟨0, [], false, []⟩ rfl⟩

end Generator

end LibraryModels
