import LibraryModels.Proofs.Generator.Run

/-!
# Runs that are cancelled

Two generators that answer alike, but for requests to cancel, go through the same stages until one
of them is asked to stop.  A request is looked at between stages only: the stage in which it is
made is finished and counts as it would have without it, and no other stage is begun.  So a run
that is cancelled is an initial part of the run that is not.
-/

namespace LibraryModels

variable {ε ε' τ τ' : Type}

/-! ## Generators that answer alike -/

/-- States in which the same was seen, with related engines and related sinks. -/
structure RunState.Alike (R : ε' → ε → Prop) (S : τ' → τ → Prop)
    (s' : RunState ε' τ') (s : RunState ε τ) : Prop where
  engine : R s'.engine s.engine
  sink : S s'.sink s.sink
  events_eq : s'.events = s.events

theorem RunState.Alike.noted
    {R : ε' → ε → Prop} {S : τ' → τ → Prop} {s' : RunState ε' τ'} {s : RunState ε τ}
    (hs : s'.Alike R S s) (events : List Event) :
    (s'.noted events).Alike R S (s.noted events) where
  engine := hs.engine
  sink := hs.sink
  events_eq := congrArg (· ++ events) hs.events_eq

namespace Generator

/--
From related states every call is answered alike and leaves related states; only the requests to
cancel may differ.  No query is started once cancellation has been requested.
-/
structure Mirrors (h : Generator ε' τ') (g : Generator ε τ) (R : ε' → ε → Prop)
    (S : τ' → τ → Prop) : Prop where
  database_eq : h.database = g.database
  qlDir_eq : h.qlDir = g.qlDir
  storageDir_eq : h.storageDir = g.storageDir
  run : ∀ query x y, R x y →
    (h.engine.run h.database query false x).1.reports =
        (g.engine.run g.database query false y).1.reports ∧
      (h.engine.run h.database query false x).1.warnings =
        (g.engine.run g.database query false y).1.warnings ∧
      (h.engine.run h.database query false x).1.reply.result =
        (g.engine.run g.database query false y).1.reply.result ∧
      R (h.engine.run h.database query false x).2 (g.engine.run g.database query false y).2
  info : ∀ results x y, R x y →
    (h.engine.info results x).1.result = (g.engine.info results y).1.result ∧
      R (h.engine.info results x).2 (g.engine.info results y).2
  decode : ∀ results set x y, R x y →
    (h.engine.decode results set x).1.result = (g.engine.decode results set y).1.result ∧
      R (h.engine.decode results set x).2 (g.engine.decode results set y).2
  accept : ∀ kind results x y, S x y →
    (h.sink.accept kind results x).1.result = (g.sink.accept kind results y).1.result ∧
      S (h.sink.accept kind results x).2 (g.sink.accept kind results y).2

section Mirrors

variable {h : Generator ε' τ'} {g : Generator ε τ} {R : ε' → ε → Prop} {S : τ' → τ → Prop}
variable {stage : Stage} {r : StageRecord}
variable {s' t' : RunState ε' τ'} {s t : RunState ε τ}

theorem Mirrors.query_eq
    (hm : h.Mirrors g R S) (stage : Stage) :
    h.query stage = g.query stage := by
  rw [query, query, hm.database_eq, hm.qlDir_eq, hm.storageDir_eq]

theorem Mirrors.queried
    {q : QueryReply}
    (hm : h.Mirrors g R S) (hs : s'.Alike R S s)
    (hlive' : s'.cancelled = false) (hlive : s.cancelled = false)
    (hquery : g.queried stage s = (q, t)) :
    ∃ q' t', h.queried stage s' = (q', t') ∧ q'.reports = q.reports ∧
      q'.warnings = q.warnings ∧ q'.reply.result = q.reply.result ∧ t'.Alike R S t := by
  cases hquery
  obtain ⟨hreports, hwarnings, hresult, hengine⟩ :=
    hm.run (g.query stage) s'.engine s.engine hs.engine
  refine ⟨_, _, rfl, ?_⟩
  simp only [hm.query_eq, hlive', hlive]
  refine ⟨hreports, hwarnings, hresult, hengine, hs.sink, ?_⟩
  show s'.events ++ _ = s.events ++ _
  rw [hs.events_eq, queryEvents, queryEvents, hreports, hwarnings, hm.query_eq]

theorem Mirrors.informed
    {results : FilePath} {i : Reply ResultsInfo}
    (hm : h.Mirrors g R S) (hs : s'.Alike R S s) (hinfo : g.informed results s = (i, t)) :
    ∃ i' t', h.informed results s' = (i', t') ∧ i'.result = i.result ∧ t'.Alike R S t := by
  cases hinfo
  obtain ⟨hresult, hengine⟩ := hm.info results s'.engine s.engine hs.engine
  exact ⟨_, _, rfl, hresult, hengine, hs.sink, congrArg (· ++ _) hs.events_eq⟩

theorem Mirrors.decoded
    {results : FilePath} {set : String} {d : Reply Table}
    (hm : h.Mirrors g R S) (hs : s'.Alike R S s) (hdecode : g.decoded results set s = (d, t)) :
    ∃ d' t', h.decoded results set s' = (d', t') ∧ d'.result = d.result ∧ t'.Alike R S t := by
  cases hdecode
  obtain ⟨hresult, hengine⟩ := hm.decode results set s'.engine s.engine hs.engine
  exact ⟨_, _, rfl, hresult, hengine, hs.sink, congrArg (· ++ _) hs.events_eq⟩

theorem Mirrors.accepted
    {kind : Kind} {results : List Entry} {a : Reply Unit}
    (hm : h.Mirrors g R S) (hs : s'.Alike R S s) (haccept : g.accepted kind results s = (a, t)) :
    ∃ a' t', h.accepted kind results s' = (a', t') ∧ a'.result = a.result ∧ t'.Alike R S t := by
  cases haccept
  obtain ⟨hresult, hsink⟩ := hm.accept kind results s'.sink s.sink hs.sink
  exact ⟨_, _, rfl, hresult, hs.engine, hsink, congrArg (· ++ _) hs.events_eq⟩

/-- From related states a stage ends with the same record, whether or not it is cancelled. -/
theorem Mirrors.ends
    (hm : h.Mirrors g R S) (hs : s'.Alike R S s)
    (hlive' : s'.cancelled = false) (hlive : s.cancelled = false)
    (hends : g.Ends stage s r t) :
    ∃ t', h.Ends stage s' r t' ∧ t'.Alike R S t := by
  -- call by call: each answer is the same, so the next call is made, and from related states
  cases hends with
  | engineError hquery hfail =>
      obtain ⟨q', s₁', hquery', hreports, hwarnings, hresult, hs₁⟩ :=
        hm.queried hs hlive' hlive hquery
      rw [← hreports, ← hwarnings]
      exact ⟨_, .engineError hquery' (hresult.trans hfail), hs₁⟩
  | infoError hquery hresults hinfo hfail =>
      obtain ⟨q', s₁', hquery', hreports, hwarnings, hresult, hs₁⟩ :=
        hm.queried hs hlive' hlive hquery
      obtain ⟨i', s₂', hinfo', hi, hs₂⟩ := hm.informed hs₁ hinfo
      rw [← hreports, ← hwarnings]
      exact ⟨_, .infoError hquery' (hresult.trans hresults) hinfo' (hi.trans hfail), hs₂⟩
  | skipped hquery hresults hinfo hsets hcount =>
      obtain ⟨q', s₁', hquery', hreports, hwarnings, hresult, hs₁⟩ :=
        hm.queried hs hlive' hlive hquery
      obtain ⟨i', s₂', hinfo', hi, hs₂⟩ := hm.informed hs₁ hinfo
      rw [← hreports, ← hwarnings]
      exact ⟨_, .skipped hquery' (hresult.trans hresults) hinfo' (hi.trans hsets) hcount,
        hs₂.noted _⟩
  | decodeError hquery hresults hinfo hsets hdecode hfail =>
      obtain ⟨q', s₁', hquery', hreports, hwarnings, hresult, hs₁⟩ :=
        hm.queried hs hlive' hlive hquery
      obtain ⟨i', s₂', hinfo', hi, hs₂⟩ := hm.informed hs₁ hinfo
      obtain ⟨d', s₃', hdecode', hd, hs₃⟩ := hm.decoded hs₂ hdecode
      rw [← hreports, ← hwarnings]
      exact ⟨_, .decodeError hquery' (hresult.trans hresults) hinfo' (hi.trans hsets) hdecode'
        (hd.trans hfail), hs₃⟩
  | refused hquery hresults hinfo hsets hdecode htable haccept hfail =>
      obtain ⟨q', s₁', hquery', hreports, hwarnings, hresult, hs₁⟩ :=
        hm.queried hs hlive' hlive hquery
      obtain ⟨i', s₂', hinfo', hi, hs₂⟩ := hm.informed hs₁ hinfo
      obtain ⟨d', s₃', hdecode', hd, hs₃⟩ := hm.decoded hs₂ hdecode
      obtain ⟨a', s₄', haccept', ha, hs₄⟩ := hm.accepted (hs₃.noted _) haccept
      rw [← hreports, ← hwarnings]
      exact ⟨_, .refused hquery' (hresult.trans hresults) hinfo' (hi.trans hsets) hdecode'
        (hd.trans htable) haccept' (ha.trans hfail), hs₄⟩
  | delivered hquery hresults hinfo hsets hdecode htable haccept hdone =>
      obtain ⟨q', s₁', hquery', hreports, hwarnings, hresult, hs₁⟩ :=
        hm.queried hs hlive' hlive hquery
      obtain ⟨i', s₂', hinfo', hi, hs₂⟩ := hm.informed hs₁ hinfo
      obtain ⟨d', s₃', hdecode', hd, hs₃⟩ := hm.decoded hs₂ hdecode
      obtain ⟨a', s₄', haccept', ha, hs₄⟩ := hm.accepted (hs₃.noted _) haccept
      rw [← hreports, ← hwarnings]
      exact ⟨_, .delivered hquery' (hresult.trans hresults) hinfo' (hi.trans hsets) hdecode'
        (hd.trans htable) haccept' (ha.trans hdone), hs₄⟩

end Mirrors

/-! ## Where a run is cancelled -/

/-- While some stages run, cancellation is requested first during the one at place `i`. -/
def CancelledDuring (g : Generator ε τ) (stages : List Stage) (s : RunState ε τ) (i : Nat) : Prop :=
  (g.through (stages.take i) s).2.cancelled = false ∧
    (g.through (stages.take (i + 1)) s).2.cancelled = true

/-- The result of a run that was cancelled, by its failure and by the stages that are left. -/
def cancelledResult : Option RunError → List Stage → Except RunError Unit
  | some e, _ => .error e
  | none, [] => .ok ()
  | none, _ :: _ => .error .cancelled

section Through

variable {g : Generator ε τ} {stage : Stage} {stages rest : List Stage} {r : StageRecord}
variable {s t : RunState ε τ} {i : Nat}

/-- After a request to cancel no stage is begun. -/
theorem through_eq_of_cancelled
    (hcancelled : s.cancelled = true) :
    g.through stages s = (cancelledResult none stages, s) := by
  cases stages with
  | nil => rfl
  | cons stage rest => exact through_of_cancelled hcancelled

/-- A run that is not cancelled in the end was not cancelled when it began. -/
theorem cancelled_eq_false_of_through
    (h : (g.through stages s).2.cancelled = false) :
    s.cancelled = false := by
  cases hcancelled : s.cancelled with
  | false => rfl
  | true =>
      rw [through_eq_of_cancelled hcancelled] at h
      exact hcancelled.symm.trans h

theorem CancelledDuring.live
    (h : g.CancelledDuring stages s i) :
    s.cancelled = false :=
  cancelled_eq_false_of_through h.1

theorem CancelledDuring.lt_length
    (h : g.CancelledDuring stages s i) :
    i < stages.length := by
  by_contra hlength
  obtain ⟨hbefore, hafter⟩ := h
  rw [List.take_of_length_le (by omega)] at hbefore hafter
  rw [hbefore] at hafter
  cases hafter

/-- A run that is cancelled in the end was cancelled at the start or during one of its stages. -/
theorem cancelled_or_exists_cancelledDuring
    (h : (g.through stages s).2.cancelled = true) :
    s.cancelled = true ∨ ∃ i, g.CancelledDuring stages s i := by
  have hfirst : ∀ n, (g.through (stages.take n) s).2.cancelled = true →
      s.cancelled = true ∨ ∃ i, g.CancelledDuring stages s i := by
    intro n
    induction n with
    | zero => exact .inl
    | succ n ih =>
        intro hcancelled
        cases hbefore : (g.through (stages.take n) s).2.cancelled with
        | true => exact ih hbefore
        | false => exact .inr ⟨n, hbefore, hcancelled⟩
  apply hfirst stages.length
  rw [List.take_length]
  exact h

end Through

section TwoRuns

variable {h : Generator ε' τ'} {g : Generator ε τ} {R : ε' → ε → Prop} {S : τ' → τ → Prop}
variable {stages : List Stage} {records : List StageRecord} {result : Except RunError Unit}
variable {s' : RunState ε' τ'} {s t : RunState ε τ} {i : Nat}

/-- Without a request to cancel both runs go the same way. -/
theorem Passes.through_of_live
    (hp : g.Passes stages s records result t) (hm : h.Mirrors g R S) (hs : s'.Alike R S s)
    (hlive : t.cancelled = false) (hlive' : (h.through stages s').2.cancelled = false) :
    (h.through stages s').1 = result ∧ (h.through stages s').2.Alike R S t := by
  have hstart := cancelled_eq_false_of_through hlive'
  induction hp generalizing s' with
  | finished => exact ⟨rfl, hs⟩
  | cancelled hcancelled =>
      rw [hlive] at hcancelled
      cases hcancelled
  | failed hstarted hends herror =>
      obtain ⟨t', hends', ht⟩ := hm.ends hs hstart hstarted hends
      rw [through_of_failed hends' hstart herror]
      exact ⟨rfl, ht⟩
  | passed hstarted hends herror _ ih =>
      obtain ⟨t', hends', ht⟩ := hm.ends hs hstart hstarted hends
      rw [through_of_passed hends' hstart herror] at hlive' ⊢
      exact ih ht hlive hlive' (cancelled_eq_false_of_through hlive')

/--
A run that is cancelled during the stage at place `i` ends in a state that the other run is in
after that stage.
-/
theorem Passes.through_of_cancelledDuring
    (hp : g.Passes stages s records result t) (hm : h.Mirrors g R S) (hs : s'.Alike R S s)
    (hlive : t.cancelled = false) (hc : h.CancelledDuring stages s' i) :
    ∃ u, Between g s u ((records.take (i + 1)).flatMap g.stageEvents) ∧
      (h.through stages s').2.Alike R S u ∧
      (records.take (i + 1)).map StageRecord.stage = stages.take (i + 1) ∧
      (h.through stages s').1 =
        cancelledResult ((records.take (i + 1)).findSome? StageRecord.error?)
          (stages.drop (i + 1)) := by
  have hstart := hc.live
  -- on the stages of the run that is not cancelled; `i` counts those before the request
  induction hp generalizing s' i with
  | finished => exact absurd hc.lt_length (Nat.not_lt_zero i)
  | cancelled hcancelled =>
      rw [hlive] at hcancelled
      cases hcancelled
  | failed hstarted hends herror =>
      obtain ⟨t', hends', ht⟩ := hm.ends hs hstart hstarted hends
      cases i with
      | zero =>
          rw [through_of_failed hends' hstart herror]
          refine ⟨_, ?_, ht, ?_, ?_⟩
          · simpa using hends.between
          · simp [hends.stage_eq]
          · simp [herror, cancelledResult]
      | succ i =>
          -- after a failure no other stage is begun
          obtain ⟨hbefore, hafter⟩ := hc
          rw [List.take_succ_cons, through_of_failed hends' hstart herror] at hbefore hafter
          rw [hbefore] at hafter
          cases hafter
  | @passed _ rest _ _ _ _ _ _ hstarted hends herror _ ih =>
      obtain ⟨t', hends', ht⟩ := hm.ends hs hstart hstarted hends
      rw [through_of_passed hends' hstart herror]
      cases i with
      | zero =>
          have hcancelled := hc.2
          rw [List.take_succ_cons, List.take_zero, through_of_passed hends' hstart herror,
            through_nil] at hcancelled
          rw [through_eq_of_cancelled hcancelled]
          refine ⟨_, ?_, ht, ?_, ?_⟩
          · simpa using hends.between
          · simp [hends.stage_eq]
          · simp [herror]
      | succ i =>
          have hrest : h.CancelledDuring rest t' i := by
            obtain ⟨hbefore, hafter⟩ := hc
            rw [List.take_succ_cons, through_of_passed hends' hstart herror] at hbefore hafter
            exact ⟨hbefore, hafter⟩
          obtain ⟨u, hbetween, hu, hstages, hresult⟩ := ih ht hlive hrest hrest.live
          refine ⟨u, ?_, hu, ?_, ?_⟩
          · rw [List.take_succ_cons, List.flatMap_cons]
            exact hends.between.trans hbetween
          · rw [List.take_succ_cons, List.map_cons, hends.stage_eq, hstages, List.take_succ_cons]
          · rw [List.take_succ_cons, List.findSome?_cons, herror, List.drop_succ_cons]
            exact hresult

end TwoRuns

/-! ## The run that is cancelled and the run that is not -/

/--
What a run comes to that is cancelled during the stage at place `i`.  The records are those of the
run that starts alike and is not cancelled: what they say up to that stage is seen, and no more.
-/
structure Interrupted (g : Generator ε τ) (start : RunState ε τ) (records : List StageRecord)
    (S : τ' → τ → Prop) (i : Nat) (run : Except RunError Unit × RunState ε' τ') : Prop where
  place : i < Stage.all.length
  begun : (records.take (i + 1)).map StageRecord.stage = Stage.all.take (i + 1)
  events_eq : run.2.events = start.events ++ (records.take (i + 1)).flatMap g.stageEvents
  queries_eq : ((records.take (i + 1)).flatMap g.stageEvents).filterMap Event.query? =
    (Stage.all.take (i + 1)).map g.query
  deliveries_eq : ((records.take (i + 1)).flatMap g.stageEvents).filterMap Event.delivery? =
    (records.take (i + 1)).filterMap StageRecord.delivery?
  progress_eq : ((records.take (i + 1)).flatMap g.stageEvents).filterMap Event.progress? =
    (records.take (i + 1)).flatMap StageRecord.progress
  /-- Nothing that was delivered is taken back. -/
  sink : S run.2.sink (g.feed start.sink ((records.take (i + 1)).filterMap StageRecord.delivery?))
  failed : ∀ r ∈ records.take (i + 1), ∀ e, r.error? = some e →
    run.1 = .error e ∧ (g.run start).1 = .error e
  cancelled : (∀ r ∈ records.take (i + 1), r.error? = none) → i < 3 → run.1 = .error .cancelled
  finished : (∀ r ∈ records.take (i + 1), r.error? = none) → i = 3 → run.1 = .ok ()

section Interruption

variable {h : Generator ε' τ'} {g : Generator ε τ} {R : ε' → ε → Prop} {S : τ' → τ → Prop}
variable {records : List StageRecord} {start' : RunState ε' τ'} {start : RunState ε τ} {i : Nat}

theorem findSome?_error?_eq_none_iff :
    records.findSome? StageRecord.error? = none ↔ ∀ r ∈ records, r.error? = none :=
  List.findSome?_eq_none_iff

theorem interrupted_of_cancelledDuring
    (hp : g.Passes Stage.all start records (g.run start).1 (g.run start).2)
    (hm : h.Mirrors g R S) (hs : start'.Alike R S start)
    (hlive : (g.run start).2.cancelled = false) (hc : h.CancelledDuring Stage.all start' i) :
    g.Interrupted start records S i (h.run start') := by
  obtain ⟨u, hbetween, hu, hstages, hresult⟩ := hp.through_of_cancelledDuring hm hs hlive hc
  have hplace : i < 4 := hc.lt_length
  exact
    { place := hplace
      begun := hstages
      events_eq := hu.events_eq.trans hbetween.events_eq
      queries_eq := by
        rw [Generator.queries_eq, ← hstages, List.map_map]
        rfl
      deliveries_eq := Generator.deliveries_eq _
      progress_eq := Generator.progress_eq _
      sink := by
        have hsink := hu.sink
        rw [hbetween.sink_eq, Generator.deliveries_eq] at hsink
        exact hsink
      failed := by
        intro r hr e herror
        have hwhole := hp.findSome?_eq_some_of_mem (List.mem_of_mem_take hr) herror
        cases hpart : (records.take (i + 1)).findSome? StageRecord.error? with
        | none =>
            rw [findSome?_error?_eq_none_iff.1 hpart r hr] at herror
            cases herror
        | some e' =>
            have hsplit := List.take_append_drop (i + 1) records
            rw [← hsplit, List.findSome?_append, hpart, Option.some_or] at hwhole
            rw [hpart, hwhole] at hresult
            refine ⟨hresult, (hp.eq_error_iff hlive).2 ?_⟩
            rw [← hsplit, List.findSome?_append, hpart, Option.some_or, hwhole]
      cancelled := by
        intro hnone hi
        obtain ⟨stage, rest, hleft⟩ : ∃ stage rest, Stage.all.drop (i + 1) = stage :: rest := by
          apply List.exists_cons_of_ne_nil
          rw [ne_eq, List.drop_eq_nil_iff]
          show ¬4 ≤ i + 1
          omega
        rw [findSome?_error?_eq_none_iff.2 hnone, hleft] at hresult
        exact hresult
      finished := by
        intro hnone hi
        subst hi
        rw [findSome?_error?_eq_none_iff.2 hnone] at hresult
        exact hresult }

/--
A run is compared with the run that starts alike and in which nobody asks to cancel.  Cancelled
before it starts, it does nothing; cancelled during a stage, it goes as far as the end of that
stage, with all that is seen until then, and fails as the other run if that fails so far.
-/
theorem run_interrupted
    (hmirrors : h.Mirrors g R S) (hstart : start'.Alike R S start)
    (hlive : (g.run start).2.cancelled = false) :
    ∃ records, g.Passes Stage.all start records (g.run start).1 (g.run start).2 ∧
      (g.run start).2.events = start.events ++ records.flatMap g.stageEvents ∧
      (start'.cancelled = true → h.run start' = (.error .cancelled, start')) ∧
      (∀ i, h.CancelledDuring Stage.all start' i →
        g.Interrupted start records S i (h.run start')) ∧
      ((h.run start').2.cancelled = true →
        start'.cancelled = true ∨ ∃ i, h.CancelledDuring Stage.all start' i) ∧
      ((h.run start').2.cancelled = false →
        (h.run start').1 = (g.run start).1 ∧ (h.run start').2.Alike R S (g.run start).2) := by
  obtain ⟨records, hpasses⟩ := g.exists_passes start
  refine ⟨records, hpasses, hpasses.between.events_eq, through_of_cancelled, ?_,
    cancelled_or_exists_cancelledDuring, ?_⟩
  · intro i hc
    exact interrupted_of_cancelledDuring hpasses hmirrors hstart hlive hc
  · intro hlive'
    exact hpasses.through_of_live hmirrors hstart hlive hlive'

/-- The generator that fails in its third stage, with a request to cancel in the second one. -/
def interrupting : Generator Nat (List (Kind × List Entry)) where
  engine :=
    { failing.engine with
      info := fun results n => (⟨(failing.engine.info results n).1.result, n == 2⟩, n) }
  sink := failing.sink
  database := failing.database
  qlDir := failing.qlDir
  storageDir := failing.storageDir

theorem interrupting_mirrors : interrupting.Mirrors failing Eq Eq where
  database_eq := rfl
  qlDir_eq := rfl
  storageDir_eq := rfl
  run := by
    rintro query x _ rfl
    exact ⟨rfl, rfl, rfl, rfl⟩
  info := by
    rintro results x _ rfl
    exact ⟨rfl, rfl⟩
  decode := by
    rintro results set x _ rfl
    exact ⟨rfl, rfl⟩
  accept := by
    rintro kind results x _ rfl
    exact ⟨rfl, rfl⟩

/-- Nothing was called yet. -/
def untouched : RunState Nat (List (Kind × List Entry)) where
  engine := 0
  sink := []

theorem run_interrupted_skipping :
    interrupting.Mirrors failing Eq Eq ∧ untouched.Alike Eq Eq untouched ∧
      (failing.run untouched).2.cancelled = false ∧
      interrupting.CancelledDuring Stage.all untouched 1 ∧
      ∃ records, failing.Interrupted untouched records Eq 1 (interrupting.run untouched) := by
  have hstart : untouched.Alike Eq Eq untouched := ⟨rfl, rfl, rfl⟩
  have hduring : interrupting.CancelledDuring Stage.all untouched 1 := ⟨rfl, rfl⟩
  obtain ⟨records, -, -, -, hinterrupted, -⟩ := run_interrupted interrupting_mirrors hstart rfl
  exact ⟨interrupting_mirrors, hstart, rfl, hduring, records, hinterrupted 1 hduring⟩

end Interruption

end Generator

end LibraryModels
