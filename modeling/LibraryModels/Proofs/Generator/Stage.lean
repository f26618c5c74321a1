import LibraryModels.Generator
import LibraryModels.Proofs.Row

/-!
# What comes of one stage

A stage makes at most four calls, and each call answers from the state that the one before it
left.  `Ends` lists the six ways in which a stage can end, by those answers; `exists_ends` says
that a stage ends in one of them, and `Ends.run_eq` that running it has that result.
-/

namespace LibraryModels

variable {ε τ α β : Type}

/-! ## Parts of a run -/

namespace RunM

theorem run_bind (x : RunM ε τ α) (f : α → RunM ε τ β) (s : RunState ε τ) :
    (x >>= f).run.run s =
      match x.run.run s with
      | (.ok a, t) => (f a).run.run t
      | (.error e, t) => (.error e, t) := by
  show ExceptT.bindCont f (x.run.run s).1 (x.run.run s).2 = _
  obtain ⟨result, t⟩ := x.run.run s
  cases result with
  | ok a => rfl
  | error e => rfl

theorem run_get_bind (f : RunState ε τ → RunM ε τ α) (s : RunState ε τ) :
    (get >>= f).run.run s = (f s).run.run s := rfl

theorem run_bind_of_ok
    {x : RunM ε τ α} {f : α → RunM ε τ β} {s t : RunState ε τ} {a : α}
    (hx : x.run.run s = (.ok a, t)) :
    (x >>= f).run.run s = (f a).run.run t := by
  rw [run_bind, hx]

theorem run_bind_of_error
    {x : RunM ε τ α} {f : α → RunM ε τ β} {s t : RunState ε τ} {e : RunError}
    (hx : x.run.run s = (.error e, t)) :
    (x >>= f).run.run s = (.error e, t) := by
  rw [run_bind, hx]

end RunM

/-- The state in which more can be seen. -/
def RunState.noted (s : RunState ε τ) (events : List Event) : RunState ε τ :=
  { s with events := s.events ++ events }

/-- The state after a call that left the engine in a state of its own. -/
def RunState.asked (s : RunState ε τ) (engine : ε) (cancels : Bool) (events : List Event) :
    RunState ε τ :=
  { s with engine, cancelled := s.cancelled || cancels, events := s.events ++ events }

/-- The state after a call that left the sink in a state of its own. -/
def RunState.offered (s : RunState ε τ) (sink : τ) (cancels : Bool) (events : List Event) :
    RunState ε τ :=
  { s with sink, cancelled := s.cancelled || cancels, events := s.events ++ events }

namespace Generator

variable {g : Generator ε τ} {stage : Stage} {s t : RunState ε τ}

/-- The query of a stage. -/
def query (g : Generator ε τ) (stage : Stage) : Query :=
  ⟨stage.path g.qlDir g.database.language, g.storageDir⟩

/-- What can be seen of a query and of what the engine said while it ran. -/
def queryEvents (g : Generator ε τ) (stage : Stage) (reports : List Report)
    (warnings : List RunWarning) : List Event :=
  .run (g.query stage) ::
    (reports.map fun r => .progress (.ofStage stage.kind stage.index r.step r.message)) ++
    warnings.map .warning

/-! ## The calls of a stage -/

/-- The engine's answer to the query of a stage. -/
def queried (g : Generator ε τ) (stage : Stage) (s : RunState ε τ) :
    QueryReply × RunState ε τ :=
  let (q, engine) := g.engine.run g.database (g.query stage) s.cancelled s.engine
  (q, s.asked engine q.reply.cancels (g.queryEvents stage q.reports q.warnings))

/-- The answer to the question for what a query left behind. -/
def informed (g : Generator ε τ) (results : FilePath) (s : RunState ε τ) :
    Reply ResultsInfo × RunState ε τ :=
  let (i, engine) := g.engine.info results s.engine
  (i, s.asked engine i.cancels [.info results])

/-- The answer to the question for a result set. -/
def decoded (g : Generator ε τ) (results : FilePath) (set : String) (s : RunState ε τ) :
    Reply Table × RunState ε τ :=
  let (d, engine) := g.engine.decode results set s.engine
  (d, s.asked engine d.cancels [.decode results set])

/-- The sink's answer to some models. -/
def accepted (g : Generator ε τ) (kind : Kind) (results : List Entry) (s : RunState ε τ) :
    Reply Unit × RunState ε τ :=
  let (a, sink) := g.sink.accept kind results s.sink
  (a, s.offered sink a.cancels [.accept kind results])

theorem run_take (reply : Reply α) (s : RunState ε τ) :
    (take reply : RunM ε τ α).run.run s =
      (reply.result, { s with cancelled := s.cancelled || reply.cancels }) := by
  obtain ⟨result, cancels⟩ := reply
  cases result with
  | ok a => rfl
  | error e => rfl

theorem run_runQuery (g : Generator ε τ) (stage : Stage) (s : RunState ε τ) :
    (g.runQuery stage.kind stage.index (g.query stage)).run.run s =
      ((g.queried stage s).1.reply.result, (g.queried stage s).2) := by
  have hnoted :
      s.events ++ [.run (g.query stage)] ++
          ((g.queried stage s).1.reports.map fun r =>
            .progress (.ofStage stage.kind stage.index r.step r.message)) ++
          (g.queried stage s).1.warnings.map .warning =
        (g.queried stage s).2.events := by
    show _ = s.events ++ g.queryEvents stage _ _
    simp only [queryEvents, List.append_assoc, List.cons_append, List.nil_append]
    rfl
  exact (run_take _ _).trans
    (congrArg (fun events => (_, { (g.queried stage s).2 with events })) hnoted)

theorem run_readInfo (g : Generator ε τ) (results : FilePath) (s : RunState ε τ) :
    (g.readInfo results).run.run s =
      ((g.informed results s).1.result, (g.informed results s).2) :=
  run_take _ _

theorem run_readTable (g : Generator ε τ) (results : FilePath) (set : String)
    (s : RunState ε τ) :
    (g.readTable results set).run.run s =
      ((g.decoded results set s).1.result, (g.decoded results set s).2) :=
  run_take _ _

theorem run_deliver (g : Generator ε τ) (kind : Kind) (results : List Entry)
    (s : RunState ε τ) :
    (g.deliver kind results).run.run s =
      ((g.accepted kind results s).1.result, (g.accepted kind results s).2) :=
  run_take _ _

end Generator

/-! ## The ways in which a stage ends -/

/-- What came of a stage after its query was started. -/
inductive Ending where
  | engineError (e : RunError)
  | infoError (results : FilePath) (e : RunError)
  /-- The query left no result set, or several of them. -/
  | skipped (results : FilePath) (count : Nat)
  | decodeError (results : FilePath) (set : String) (e : RunError)
  /-- The models of a table were handed to the sink, which failed. -/
  | refused (results : FilePath) (set : String) (table : Table) (e : RunError)
  | delivered (results : FilePath) (set : String) (table : Table)

/-- A stage that was begun. -/
structure StageRecord where
  stage : Stage
  reports : List Report
  warnings : List RunWarning
  ending : Ending

namespace StageRecord

/-- Why a stage failed. -/
def error? (r : StageRecord) : Option RunError :=
  match r.ending with
  | .engineError e | .infoError _ e | .decodeError _ _ e | .refused _ _ _ e => some e
  | .skipped _ _ | .delivered _ _ _ => none

/-- What the caller was shown in a stage: the reports of the engine, on the bar of the run. -/
def progress (r : StageRecord) : List Progress :=
  r.reports.map fun report => .ofStage r.stage.kind r.stage.index report.step report.message

/-- The result set that was asked for in a stage, by the file that it is in. -/
def decode? (r : StageRecord) : Option (FilePath × String) :=
  match r.ending with
  | .decodeError results set _ | .refused results set _ _ | .delivered results set _ =>
    some (results, set)
  | .engineError _ | .infoError _ _ | .skipped _ _ => none

/-- The table that was read in a stage. -/
def table? (r : StageRecord) : Option Table :=
  match r.ending with
  | .refused _ _ table _ | .delivered _ _ table => some table
  | .engineError _ | .infoError _ _ | .skipped _ _ | .decodeError _ _ _ => none

/-- The models that were handed to the sink in a stage. -/
def delivery? (r : StageRecord) : Option (Kind × List Entry) :=
  r.table?.map fun table => (r.stage.kind, Generator.entriesOfTable r.stage.kind table)

/-- What the query of a stage came to: the models of its table, if it left one, or a failure. -/
def captured (r : StageRecord) : Except RunError (Option (List Entry)) :=
  match r.ending with
  | .engineError e | .infoError _ e | .decodeError _ _ e => .error e
  | .skipped _ _ => .ok none
  | .refused _ _ table _ | .delivered _ _ table =>
    .ok (some (Generator.entriesOfTable r.stage.kind table))

theorem calls_of_skipped
    {r : StageRecord} {results : FilePath} {count : Nat}
    (h : r.ending = .skipped results count) :
    r.decode? = none ∧ r.delivery? = none ∧ r.error? = none := by
  refine ⟨?_, ?_, ?_⟩
  · rw [decode?, h]
  · rw [delivery?, table?, h]
    rfl
  · rw [error?, h]

end StageRecord

namespace Generator

variable {g : Generator ε τ} {stage : Stage} {r : StageRecord} {s t : RunState ε τ}

/-- What can be seen of a stage after its query. -/
def endingEvents (kind : Kind) : Ending → List Event
  | .engineError _ => []
  | .infoError results _ => [.info results]
  | .skipped results count =>
    [.info results, .warning (.resultSets count), .warning (.skippedStage kind)]
  | .decodeError results set _ => [.info results, .decode results set]
  | .refused results set table _ | .delivered results set table =>
    [.info results, .decode results set] ++ tableWarnings kind table ++
      [.accept kind (entriesOfTable kind table)]

/-- What can be seen of a stage. -/
def stageEvents (g : Generator ε τ) (r : StageRecord) : List Event :=
  g.queryEvents r.stage r.reports r.warnings ++ endingEvents r.stage.kind r.ending

/--
From a state a stage ends as a record says, and in another state.  Every call is answered from the
state that the call before it left, and a call that fails is the last one.
-/
inductive Ends (g : Generator ε τ) (stage : Stage) (s : RunState ε τ) :
    StageRecord → RunState ε τ → Prop
  | engineError
      {q : QueryReply} {s₁ : RunState ε τ} {e : RunError}
      (hquery : g.queried stage s = (q, s₁)) (hfail : q.reply.result = .error e) :
      Ends g stage s ⟨stage, q.reports, q.warnings, .engineError e⟩ s₁
  | infoError
      {q : QueryReply} {s₁ s₂ : RunState ε τ} {results : FilePath} {i : Reply ResultsInfo}
      {e : RunError}
      (hquery : g.queried stage s = (q, s₁)) (hresults : q.reply.result = .ok results)
      (hinfo : g.informed results s₁ = (i, s₂)) (hfail : i.result = .error e) :
      Ends g stage s ⟨stage, q.reports, q.warnings, .infoError results e⟩ s₂
  | skipped
      {q : QueryReply} {s₁ s₂ : RunState ε τ} {results : FilePath} {i : Reply ResultsInfo}
      {info : ResultsInfo}
      (hquery : g.queried stage s = (q, s₁)) (hresults : q.reply.result = .ok results)
      (hinfo : g.informed results s₁ = (i, s₂)) (hsets : i.result = .ok info)
      (hcount : info.resultSets.length ≠ 1) :
      Ends g stage s
        ⟨stage, q.reports, q.warnings, .skipped results info.resultSets.length⟩
        (s₂.noted [.warning (.resultSets info.resultSets.length),
          .warning (.skippedStage stage.kind)])
  | decodeError
      {q : QueryReply} {s₁ s₂ s₃ : RunState ε τ} {results : FilePath} {i : Reply ResultsInfo}
      {set : ResultSet} {d : Reply Table} {e : RunError}
      (hquery : g.queried stage s = (q, s₁)) (hresults : q.reply.result = .ok results)
      (hinfo : g.informed results s₁ = (i, s₂)) (hsets : i.result = .ok ⟨[set]⟩)
      (hdecode : g.decoded results set.name s₂ = (d, s₃)) (hfail : d.result = .error e) :
      Ends g stage s ⟨stage, q.reports, q.warnings, .decodeError results set.name e⟩ s₃
  | refused
      {q : QueryReply} {s₁ s₂ s₃ s₄ : RunState ε τ} {results : FilePath}
      {i : Reply ResultsInfo} {set : ResultSet} {d : Reply Table} {table : Table}
      {a : Reply Unit} {e : RunError}
      (hquery : g.queried stage s = (q, s₁)) (hresults : q.reply.result = .ok results)
      (hinfo : g.informed results s₁ = (i, s₂)) (hsets : i.result = .ok ⟨[set]⟩)
      (hdecode : g.decoded results set.name s₂ = (d, s₃)) (htable : d.result = .ok table)
      (haccept : g.accepted stage.kind (entriesOfTable stage.kind table)
        (s₃.noted (tableWarnings stage.kind table)) = (a, s₄))
      (hfail : a.result = .error e) :
      Ends g stage s ⟨stage, q.reports, q.warnings, .refused results set.name table e⟩ s₄
  | delivered
      {q : QueryReply} {s₁ s₂ s₃ s₄ : RunState ε τ} {results : FilePath}
      {i : Reply ResultsInfo} {set : ResultSet} {d : Reply Table} {table : Table}
      {a : Reply Unit}
      (hquery : g.queried stage s = (q, s₁)) (hresults : q.reply.result = .ok results)
      (hinfo : g.informed results s₁ = (i, s₂)) (hsets : i.result = .ok ⟨[set]⟩)
      (hdecode : g.decoded results set.name s₂ = (d, s₃)) (htable : d.result = .ok table)
      (haccept : g.accepted stage.kind (entriesOfTable stage.kind table)
        (s₃.noted (tableWarnings stage.kind table)) = (a, s₄))
      (hdone : a.result = .ok ()) :
      Ends g stage s ⟨stage, q.reports, q.warnings, .delivered results set.name table⟩ s₄

/-- How a stage that is run counts for the run. -/
def stageResult (r : StageRecord) : Except RunError Unit :=
  match r.error? with
  | some e => .error e
  | none => .ok ()

/-! ## A stage that is run -/

theorem run_runStage_of_cancelled
    (hcancelled : s.cancelled = true) :
    (g.runStage stage).run.run s = (.error .cancelled, s) := by
  unfold runStage
  rw [RunM.run_get_bind, if_pos hcancelled]
  rfl

theorem run_runStage
    (hlive : s.cancelled = false) :
    (g.runStage stage).run.run s =
      match (g.capture stage.kind stage.queryFile stage.index).run.run s with
      | (.ok (some results), t) => (g.deliver stage.kind results).run.run t
      | (.ok none, t) => (.ok (), t.noted [.warning (.skippedStage stage.kind)])
      | (.error e, t) => (.error e, t) := by
  have hnot : ¬s.cancelled = true := by simp [hlive]
  unfold runStage
  rw [RunM.run_get_bind, if_neg hnot, RunM.run_bind]
  obtain ⟨result, t⟩ := (g.capture stage.kind stage.queryFile stage.index).run.run s
  match result with
  | .ok (some results) => rfl
  | .ok none => rfl
  | .error e => rfl

theorem run_capture_of_queryError
    {q : QueryReply} {s₁ : RunState ε τ} {e : RunError}
    (hquery : g.queried stage s = (q, s₁)) (hfail : q.reply.result = .error e) :
    (g.capture stage.kind stage.queryFile stage.index).run.run s = (.error e, s₁) := by
  have hrun := g.run_runQuery stage s
  rw [hquery, hfail] at hrun
  exact RunM.run_bind_of_error hrun

section Informed

variable {q : QueryReply} {s₁ s₂ : RunState ε τ} {results : FilePath} {i : Reply ResultsInfo}

theorem run_capture_of_infoError
    {e : RunError}
    (hquery : g.queried stage s = (q, s₁)) (hresults : q.reply.result = .ok results)
    (hinfo : g.informed results s₁ = (i, s₂)) (hfail : i.result = .error e) :
    (g.capture stage.kind stage.queryFile stage.index).run.run s = (.error e, s₂) := by
  have hrun := g.run_runQuery stage s
  rw [hquery, hresults] at hrun
  have hread := g.run_readInfo results s₁
  rw [hinfo, hfail] at hread
  exact (RunM.run_bind_of_ok hrun).trans (RunM.run_bind_of_error hread)

theorem run_capture_of_resultSets
    {info : ResultsInfo}
    (hquery : g.queried stage s = (q, s₁)) (hresults : q.reply.result = .ok results)
    (hinfo : g.informed results s₁ = (i, s₂)) (hsets : i.result = .ok info)
    (hcount : info.resultSets.length ≠ 1) :
    (g.capture stage.kind stage.queryFile stage.index).run.run s =
      (.ok none, s₂.noted [.warning (.resultSets info.resultSets.length)]) := by
  have hrun := g.run_runQuery stage s
  rw [hquery, hresults] at hrun
  have hread := g.run_readInfo results s₁
  rw [hinfo, hsets] at hread
  refine (RunM.run_bind_of_ok hrun).trans ((RunM.run_bind_of_ok hread).trans ?_)
  match info, hcount with
  | ⟨[]⟩, _ => rfl
  | ⟨[_]⟩, hcount => exact absurd rfl hcount
  | ⟨_ :: _ :: _⟩, _ => rfl

theorem run_capture_of_resultSet
    {set : ResultSet}
    (hquery : g.queried stage s = (q, s₁)) (hresults : q.reply.result = .ok results)
    (hinfo : g.informed results s₁ = (i, s₂)) (hsets : i.result = .ok ⟨[set]⟩) :
    (g.capture stage.kind stage.queryFile stage.index).run.run s =
      match (g.readTable results set.name).run.run s₂ with
      | (.ok table, t) =>
        (.ok (some (entriesOfTable stage.kind table)), t.noted (tableWarnings stage.kind table))
      | (.error e, t) => (.error e, t) := by
  have hrun := g.run_runQuery stage s
  rw [hquery, hresults] at hrun
  have hread := g.run_readInfo results s₁
  rw [hinfo, hsets] at hread
  refine (RunM.run_bind_of_ok hrun).trans ((RunM.run_bind_of_ok hread).trans ?_)
  refine (RunM.run_bind (g.readTable results set.name) _ s₂).trans ?_
  obtain ⟨result, t⟩ := (g.readTable results set.name).run.run s₂
  cases result with
  | ok table => rfl
  | error e => rfl

end Informed

/-- A stage that is run while nothing is cancelled goes as the way in which it ends says. -/
theorem Ends.run_eq
    (h : g.Ends stage s r t) (hlive : s.cancelled = false) :
    (g.runStage stage).run.run s = (stageResult r, t) := by
  rw [run_runStage hlive]
  cases h with
  | engineError hquery hfail =>
      rw [run_capture_of_queryError hquery hfail]
      rfl
  | infoError hquery hresults hinfo hfail =>
      rw [run_capture_of_infoError hquery hresults hinfo hfail]
      rfl
  | skipped hquery hresults hinfo hsets hcount =>
      rw [run_capture_of_resultSets hquery hresults hinfo hsets hcount]
      show (_, RunState.noted (RunState.noted _ _) _) = _
      simp [RunState.noted, stageResult, StageRecord.error?]
  | decodeError hquery hresults hinfo hsets hdecode hfail =>
      rw [run_capture_of_resultSet hquery hresults hinfo hsets, run_readTable, hdecode, hfail]
      rfl
  | @refused _ _ _ s₃ _ _ _ _ _ table _ _ hquery hresults hinfo hsets hdecode htable haccept hfail =>
      rw [run_capture_of_resultSet hquery hresults hinfo hsets, run_readTable, hdecode, htable]
      show (g.deliver stage.kind (entriesOfTable stage.kind table)).run.run
        (s₃.noted (tableWarnings stage.kind table)) = _
      rw [run_deliver, haccept, hfail]
      rfl
  | @delivered _ _ _ s₃ _ _ _ _ _ table _ hquery hresults hinfo hsets hdecode htable haccept hdone =>
      rw [run_capture_of_resultSet hquery hresults hinfo hsets, run_readTable, hdecode, htable]
      show (g.deliver stage.kind (entriesOfTable stage.kind table)).run.run
        (s₃.noted (tableWarnings stage.kind table)) = _
      rw [run_deliver, haccept, hdone]
      rfl

theorem Ends.capture_eq
    (h : g.Ends stage s r t) :
    ((g.capture stage.kind stage.queryFile stage.index).run.run s).1 = r.captured := by
  cases h with
  | engineError hquery hfail => rw [run_capture_of_queryError hquery hfail, StageRecord.captured]
  | infoError hquery hresults hinfo hfail =>
      rw [run_capture_of_infoError hquery hresults hinfo hfail, StageRecord.captured]
  | skipped hquery hresults hinfo hsets hcount =>
      rw [run_capture_of_resultSets hquery hresults hinfo hsets hcount, StageRecord.captured]
  | decodeError hquery hresults hinfo hsets hdecode hfail =>
      rw [run_capture_of_resultSet hquery hresults hinfo hsets, run_readTable, hdecode, hfail]
      rfl
  | refused hquery hresults hinfo hsets hdecode htable =>
      rw [run_capture_of_resultSet hquery hresults hinfo hsets, run_readTable, hdecode, htable]
      rfl
  | delivered hquery hresults hinfo hsets hdecode htable =>
      rw [run_capture_of_resultSet hquery hresults hinfo hsets, run_readTable, hdecode, htable]
      rfl

/-- A stage ends in one of the six ways. -/
theorem exists_ends
    (g : Generator ε τ) (stage : Stage) (s : RunState ε τ) :
    ∃ r t, g.Ends stage s r t := by
  -- one case for each answer, as the calls are made: the next call is made from the state left
  rcases hquery : g.queried stage s with ⟨q, s₁⟩
  cases hresults : q.reply.result with
  | error e => exact ⟨_, _, .engineError hquery hresults⟩
  | ok results =>
      rcases hinfo : g.informed results s₁ with ⟨i, s₂⟩
      cases hsets : i.result with
      | error e => exact ⟨_, _, .infoError hquery hresults hinfo hsets⟩
      | ok info =>
          by_cases hcount : info.resultSets.length = 1
          · obtain ⟨set, hset⟩ := List.length_eq_one_iff.1 hcount
            obtain ⟨sets⟩ := info
            subst hset
            rcases hdecode : g.decoded results set.name s₂ with ⟨d, s₃⟩
            cases htable : d.result with
            | error e => exact ⟨_, _, .decodeError hquery hresults hinfo hsets hdecode htable⟩
            | ok table =>
                rcases haccept : g.accepted stage.kind (entriesOfTable stage.kind table)
                  (s₃.noted (tableWarnings stage.kind table)) with ⟨a, s₄⟩
                cases hdone : a.result with
                | error e =>
                    exact ⟨_, _, .refused hquery hresults hinfo hsets hdecode htable haccept hdone⟩
                | ok u =>
                    exact ⟨_, _,
                      .delivered hquery hresults hinfo hsets hdecode htable haccept hdone⟩
          · exact ⟨_, _, .skipped hquery hresults hinfo hsets hcount⟩

end Generator

/-! ## What is seen between two states -/

namespace Event

/-- The query that an event is about. -/
def query? : Event → Option Query
  | .run query => some query
  | _ => none

/-- What the caller is shown in an event. -/
def progress? : Event → Option Progress
  | .progress p => some p
  | _ => none

/-- The result set that an event is about. -/
def decode? : Event → Option (FilePath × String)
  | .decode results set => some (results, set)
  | _ => none

/-- The models that were handed to the sink in an event. -/
def delivery? : Event → Option (Kind × List Entry)
  | .accept kind results => some (kind, results)
  | _ => none

end Event

namespace Generator

variable {g : Generator ε τ} {stage : Stage} {r : StageRecord} {s t u : RunState ε τ}
variable {events more : List Event}

/-- The state of the sink after it was handed models in turn, whatever it answers. -/
def feed (g : Generator ε τ) (sink : τ) (deliveries : List (Kind × List Entry)) : τ :=
  deliveries.foldl (fun sink d => (g.sink.accept d.1 d.2 sink).2) sink

/--
Between two states exactly some events were seen.  They account for the state of the sink, and a
request to cancel is not taken back.
-/
structure Between (g : Generator ε τ) (s t : RunState ε τ) (events : List Event) : Prop where
  events_eq : t.events = s.events ++ events
  sink_eq : t.sink = g.feed s.sink (events.filterMap Event.delivery?)
  cancelled : s.cancelled = true → t.cancelled = true

namespace Between

theorem refl : Between g s s [] where
  events_eq := (List.append_nil _).symm
  sink_eq := rfl
  cancelled := id

theorem trans
    (h : Between g s t events) (h' : Between g t u more) :
    Between g s u (events ++ more) where
  events_eq := by rw [h'.events_eq, h.events_eq, List.append_assoc]
  sink_eq := by
    rw [h'.sink_eq, h.sink_eq, List.filterMap_append, feed, feed, feed, List.foldl_append]
  cancelled := fun hs => h'.cancelled (h.cancelled hs)

/-- Without models for the sink, the sink stays as it is. -/
theorem of_filterMap_eq_nil
    (hevents : t.events = s.events ++ events) (hsink : t.sink = s.sink)
    (hcancelled : s.cancelled = true → t.cancelled = true)
    (hnone : events.filterMap Event.delivery? = []) :
    Between g s t events where
  events_eq := hevents
  sink_eq := by
    rw [hnone]
    exact hsink
  cancelled := hcancelled

theorem asked
    (hnone : events.filterMap Event.delivery? = []) (engine : ε) (cancels : Bool) :
    Between g s (s.asked engine cancels events) events := by
  refine of_filterMap_eq_nil rfl rfl ?_ hnone
  intro hs
  show (s.cancelled || cancels) = true
  rw [hs]
  rfl

theorem noted
    (hnone : events.filterMap Event.delivery? = []) :
    Between g s (s.noted events) events :=
  of_filterMap_eq_nil rfl rfl id hnone

theorem accepted (kind : Kind) (results : List Entry) :
    Between g s (g.accepted kind results s).2 [.accept kind results] where
  events_eq := rfl
  sink_eq := rfl
  cancelled := by
    intro hs
    show (s.cancelled || _) = true
    rw [hs]
    rfl

end Between

section Projection

variable {f : Event → Option α}

theorem filterMap_warnings
    {warnings : List RunWarning}
    (hwarning : ∀ w, f (.warning w) = none) :
    (warnings.map Event.warning).filterMap f = [] := by
  rw [List.filterMap_eq_nil_iff]
  intro e he
  obtain ⟨warning, _, rfl⟩ := List.mem_map.1 he
  exact hwarning _

theorem filterMap_queryEvents
    {reports : List Report} {warnings : List RunWarning}
    (hprogress : ∀ p, f (.progress p) = none) (hwarning : ∀ w, f (.warning w) = none) :
    (g.queryEvents stage reports warnings).filterMap f = (f (.run (g.query stage))).toList := by
  have hreports : (reports.map fun r => Event.progress
      (.ofStage stage.kind stage.index r.step r.message)).filterMap f = [] := by
    rw [List.filterMap_eq_nil_iff]
    intro e he
    obtain ⟨report, _, rfl⟩ := List.mem_map.1 he
    exact hprogress _
  rw [queryEvents, List.filterMap_append, filterMap_warnings hwarning, List.append_nil,
    List.filterMap_cons, hreports]
  cases f (.run (g.query stage)) with
  | none => rfl
  | some a => rfl

theorem filterMap_tableWarnings
    {kind : Kind} {table : Table}
    (hwarning : ∀ w, f (.warning w) = none) :
    (tableWarnings kind table).filterMap f = [] := by
  unfold tableWarnings
  dsimp only
  split
  · rfl
  · simp [hwarning]

theorem filterMap_decodeEvents
    {results : FilePath} {set : String}
    (hinfo : ∀ results, f (.info results) = none) :
    [.info results, .decode results set].filterMap f = (f (.decode results set)).toList := by
  rw [List.filterMap_cons, hinfo, List.filterMap_cons]
  cases f (.decode results set) with
  | none => rfl
  | some a => rfl

theorem filterMap_acceptEvents
    {results : FilePath} {set : String} {kind : Kind} {table : Table} {entries : List Entry}
    (hwarning : ∀ w, f (.warning w) = none) (hinfo : ∀ results, f (.info results) = none) :
    ([Event.info results, .decode results set] ++ tableWarnings kind table ++
        [Event.accept kind entries]).filterMap f =
      (f (.decode results set)).toList ++ (f (.accept kind entries)).toList := by
  rw [List.filterMap_append, List.filterMap_append, filterMap_decodeEvents hinfo,
    filterMap_tableWarnings hwarning, List.append_nil, List.filterMap_cons]
  cases f (.accept kind entries) with
  | none => rfl
  | some a => rfl

/-- Queries, decoding and models for the sink are seen in a stage as its record has them. -/
theorem filterMap_stageEvents
    (hprogress : ∀ p, f (.progress p) = none) (hwarning : ∀ w, f (.warning w) = none)
    (hinfo : ∀ results, f (.info results) = none) :
    (g.stageEvents r).filterMap f =
      (f (.run (g.query r.stage))).toList ++
        (r.decode?.bind fun d => f (.decode d.1 d.2)).toList ++
        (r.delivery?.bind fun d => f (.accept d.1 d.2)).toList := by
  rw [stageEvents, List.filterMap_append, filterMap_queryEvents hprogress hwarning,
    List.append_assoc]
  congr 1
  obtain ⟨stage, reports, warnings, ending⟩ := r
  cases ending with
  | engineError e => rfl
  | infoError results e =>
      show [Event.info results].filterMap f = []
      rw [List.filterMap_cons, hinfo]
      rfl
  | skipped results count =>
      show [_, _, _].filterMap f = []
      rw [List.filterMap_cons, hinfo, List.filterMap_cons, hwarning, List.filterMap_cons, hwarning]
      rfl
  | decodeError results set e =>
      exact (filterMap_decodeEvents hinfo).trans (List.append_nil _).symm
  | refused results set table e => exact filterMap_acceptEvents hwarning hinfo
  | delivered results set table => exact filterMap_acceptEvents hwarning hinfo

end Projection

/-- The caller is shown the reports of the engine, and nothing else. -/
theorem progress_stageEvents (r : StageRecord) :
    (g.stageEvents r).filterMap Event.progress? = r.progress := by
  have hreports : (r.reports.map fun report => Event.progress
      (.ofStage r.stage.kind r.stage.index report.step report.message)).filterMap
        Event.progress? = r.progress := by
    rw [List.filterMap_map]
    exact congrFun List.filterMap_eq_map r.reports
  have hquery : (g.queryEvents r.stage r.reports r.warnings).filterMap Event.progress? =
      r.progress := by
    rw [queryEvents, List.filterMap_append, filterMap_warnings fun _ => rfl, List.append_nil]
    exact hreports
  have hending : (endingEvents r.stage.kind r.ending).filterMap Event.progress? = [] := by
    cases r.ending with
    | engineError | infoError | skipped | decodeError => rfl
    | refused | delivered => exact filterMap_acceptEvents (fun _ => rfl) fun _ => rfl
  rw [stageEvents, List.filterMap_append, hquery, hending, List.append_nil]

theorem between_of_queried
    {q : QueryReply}
    (h : g.queried stage s = (q, t)) :
    Between g s t (g.queryEvents stage q.reports q.warnings) := by
  cases h
  exact .asked (filterMap_queryEvents (fun _ => rfl) fun _ => rfl) _ _

theorem between_of_informed
    {results : FilePath} {i : Reply ResultsInfo}
    (h : g.informed results s = (i, t)) :
    Between g s t [.info results] := by
  cases h
  exact .asked rfl _ _

theorem between_of_decoded
    {results : FilePath} {set : String} {d : Reply Table}
    (h : g.decoded results set s = (d, t)) :
    Between g s t [.decode results set] := by
  cases h
  exact .asked rfl _ _

/-- From a table that was decoded to the answer of the sink. -/
theorem between_of_accepted
    {kind : Kind} {table : Table} {a : Reply Unit}
    (h : g.accepted kind (entriesOfTable kind table)
      (s.noted (tableWarnings kind table)) = (a, t)) :
    Between g s t (tableWarnings kind table ++ [.accept kind (entriesOfTable kind table)]) := by
  cases h
  apply Between.trans (Between.noted (filterMap_tableWarnings fun _ => rfl))
  exact .accepted kind _

theorem Ends.stage_eq
    (h : g.Ends stage s r t) :
    r.stage = stage := by
  cases h with
  | engineError => rfl
  | infoError => rfl
  | skipped => rfl
  | decodeError => rfl
  | refused => rfl
  | delivered => rfl

theorem Ends.count_ne_one
    {results : FilePath} {count : Nat}
    (h : g.Ends stage s r t) (hending : r.ending = .skipped results count) :
    count ≠ 1 := by
  cases h with
  | skipped hquery hresults hinfo hsets hcount =>
      cases hending
      exact hcount
  | engineError => cases hending
  | infoError => cases hending
  | decodeError => cases hending
  | refused => cases hending
  | delivered => cases hending

/-- What is seen of a stage is what its record says. -/
theorem Ends.between
    (h : g.Ends stage s r t) :
    Between g s t (g.stageEvents r) := by
  cases h with
  | engineError hquery hfail =>
      rw [stageEvents, endingEvents, List.append_nil]
      exact between_of_queried hquery
  | infoError hquery hresults hinfo hfail =>
      exact (between_of_queried hquery).trans (between_of_informed hinfo)
  | skipped hquery hresults hinfo hsets hcount =>
      apply (between_of_queried hquery).trans
      exact (between_of_informed hinfo).trans (.noted rfl)
  | decodeError hquery hresults hinfo hsets hdecode hfail =>
      apply (between_of_queried hquery).trans
      exact (between_of_informed hinfo).trans (between_of_decoded hdecode)
  | refused hquery hresults hinfo hsets hdecode htable haccept hfail =>
      apply (between_of_queried hquery).trans
      apply (between_of_informed hinfo).trans
      exact (between_of_decoded hdecode).trans (between_of_accepted haccept)
  | delivered hquery hresults hinfo hsets hdecode htable haccept hdone =>
      apply (between_of_queried hquery).trans
      apply (between_of_informed hinfo).trans
      exact (between_of_decoded hdecode).trans (between_of_accepted haccept)

end Generator

end LibraryModels
