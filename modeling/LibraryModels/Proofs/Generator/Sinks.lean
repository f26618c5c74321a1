import LibraryModels.Proofs.Generator.Keep

/-!
# Runs into different sinks

A sink that takes everything and never asks to cancel has no say in how a run goes.  Runs into two
such sinks begin the same stages, see the same and end the same; what each of them ends with is
what it makes of the same models in the same order.
-/

namespace LibraryModels

variable {ε τ υ : Type}

/-- Everything is taken, and nobody asks to cancel. -/
def Sink.Accepting (sink : Sink τ) : Prop :=
  ∀ kind results s, (sink.accept kind results s).1 = ⟨.ok (), false⟩

theorem Sink.accepting_map : Sink.map.Accepting :=
  fun _ _ _ => rfl

theorem Sink.accepting_channel : Sink.channel.Accepting :=
  fun _ _ _ => rfl

theorem Sink.accepting_each (f : Kind → List Entry → τ → τ) : (Sink.each f).Accepting :=
  fun _ _ _ => rfl

/-- The state with another sink in it. -/
def RunState.withSink (s : RunState ε τ) (sink : υ) : RunState ε υ :=
  ⟨s.engine, sink, s.cancelled, s.events⟩

namespace Generator

variable {g : Generator ε τ} {other : Sink υ} {stage : Stage} {r : StageRecord}
variable {s t : RunState ε τ} {x : υ}

/-! ## One stage -/

theorem queried_into
    {q : QueryReply}
    (h : g.queried stage s = (q, t)) :
    (g.into other).queried stage (s.withSink x) = (q, t.withSink x) := by
  cases h
  rfl

theorem informed_into
    {results : FilePath} {i : Reply ResultsInfo}
    (h : g.informed results s = (i, t)) :
    (g.into other).informed results (s.withSink x) = (i, t.withSink x) := by
  cases h
  rfl

theorem decoded_into
    {results : FilePath} {set : String} {d : Reply Table}
    (h : g.decoded results set s = (d, t)) :
    (g.into other).decoded results set (s.withSink x) = (d, t.withSink x) := by
  cases h
  rfl

/-- Two sinks that take everything give the same answer, and each has its own state after it. -/
theorem accepted_into
    {kind : Kind} {results : List Entry} {a : Reply Unit}
    (hsink : g.sink.Accepting) (hother : other.Accepting)
    (h : g.accepted kind results s = (a, t)) :
    a.result = .ok () ∧
      (g.into other).accepted kind results (s.withSink x) =
        (a, t.withSink (other.accept kind results x).2) := by
  have hanswer := hsink kind results s.sink
  have hsame : (other.accept kind results x).1 = (g.sink.accept kind results s.sink).1 := by
    rw [hanswer, hother]
  cases h
  refine ⟨congrArg Reply.result hanswer, ?_⟩
  show ((other.accept kind results x).1, (s.withSink x).offered _
      (other.accept kind results x).1.cancels _) = _
  rw [hsame]
  rfl

/-- A stage ends in the same way, with the models of its table in the other sink. -/
theorem Ends.into
    (h : g.Ends stage s r t) (hsink : g.sink.Accepting) (hother : other.Accepting) :
    (g.into other).Ends stage (s.withSink x) r
      (t.withSink ((g.into other).feed x r.delivery?.toList)) := by
  cases h with
  | engineError hquery hfail => exact .engineError (queried_into hquery) hfail
  | infoError hquery hresults hinfo hfail =>
      exact .infoError (queried_into hquery) hresults (informed_into hinfo) hfail
  | skipped hquery hresults hinfo hsets hcount =>
      exact .skipped (queried_into hquery) hresults (informed_into hinfo) hsets hcount
  | decodeError hquery hresults hinfo hsets hdecode hfail =>
      exact .decodeError (queried_into hquery) hresults (informed_into hinfo) hsets
        (decoded_into hdecode) hfail
  | refused hquery hresults hinfo hsets hdecode htable haccept hfail =>
      obtain ⟨hdone, -⟩ := accepted_into (x := x) hsink hother haccept
      rw [hdone] at hfail
      cases hfail
  | delivered hquery hresults hinfo hsets hdecode htable haccept hdone =>
      obtain ⟨-, haccept'⟩ := accepted_into (x := x) hsink hother haccept
      exact .delivered (queried_into hquery) hresults (informed_into hinfo) hsets
        (decoded_into hdecode) htable haccept' hdone

/-! ## Runs -/

variable {stages : List Stage} {records : List StageRecord} {result : Except RunError Unit}

theorem Passes.into
    (h : g.Passes stages s records result t) (hsink : g.sink.Accepting)
    (hother : other.Accepting) (x : υ) :
    (g.into other).Passes stages (s.withSink x) records result
      (t.withSink ((g.into other).feed x (records.filterMap StageRecord.delivery?))) := by
  -- on the stages of the run; the other sink goes on from what it was fed so far
  induction h generalizing x with
  | finished => exact .finished
  | cancelled hcancelled => exact .cancelled hcancelled
  | @failed _ _ _ _ r _ hlive hends herror =>
      have hfed : [r].filterMap StageRecord.delivery? = r.delivery?.toList := by
        cases hdelivery : r.delivery? <;> simp [hdelivery]
      rw [hfed]
      exact .failed hlive (hends.into hsink hother) herror
  | @passed _ _ _ _ _ r records _ hlive hends herror _ ih =>
      have hfed : (g.into other).feed x ((r :: records).filterMap StageRecord.delivery?) =
          (g.into other).feed ((g.into other).feed x r.delivery?.toList)
            (records.filterMap StageRecord.delivery?) := by
        rw [feed, feed, feed, ← List.foldl_append]
        cases hdelivery : r.delivery? <;> simp [hdelivery]
      rw [hfed]
      exact .passed hlive (hends.into hsink hother) herror (ih _)

theorem Passes.through_eq
    (h : g.Passes stages s records result t) :
    g.through stages s = (result, t) := by
  induction h with
  | finished => exact through_nil
  | cancelled hcancelled => exact through_of_cancelled hcancelled
  | failed hlive hends herror => exact through_of_failed hends hlive herror
  | passed hlive hends herror _ ih => rw [through_of_passed hends hlive herror, ih]

theorem feed_into_channel (g : Generator ε τ) (received deliveries : List (Kind × List Entry)) :
    (g.into Sink.channel).feed received deliveries = received ++ deliveries := by
  induction deliveries generalizing received with
  | nil => exact (List.append_nil received).symm
  | cons d rest ih => exact (ih _).trans (List.append_assoc received [d] rest)

/-- The run into another sink that takes everything, by the run into the first one. -/
theorem run_into
    (hsink : g.sink.Accepting) (hother : other.Accepting) (start : RunState ε τ) (x : υ) :
    ∃ added, (g.run start).2.events = start.events ++ added ∧
      (g.run start).2.sink = g.feed start.sink (added.filterMap Event.delivery?) ∧
      (g.into other).run (start.withSink x) =
        ((g.run start).1,
          (g.run start).2.withSink
            ((g.into other).feed x (added.filterMap Event.delivery?))) := by
  obtain ⟨records, hpasses⟩ := g.exists_passes start
  refine ⟨records.flatMap g.stageEvents, hpasses.between.events_eq, hpasses.between.sink_eq, ?_⟩
  rw [deliveries_eq]
  exact (hpasses.into hsink hother x).through_eq

/--
A map, a channel and a function are handed the same models in the same order by runs that start
alike, and the runs end alike, in states that differ in nothing but the sink.  The map ends as the
models of the channel make it when they are put into it one delivery after the other.
-/
theorem sinks_are_interchangeable
    (g : Generator ε τ) (start : RunState ε υ) (models : ModelMap) :
    ∃ added deliveries,
      let collected := (g.into Sink.map).run (start.withSink models)
      collected.2.events = start.events ++ added ∧
      deliveries = added.filterMap Event.delivery? ∧
      collected.2.sink =
        deliveries.foldl (fun models delivery => models.extend delivery.2) models ∧
      (g.into Sink.channel).run (start.withSink []) =
        (collected.1, collected.2.withSink deliveries) ∧
      ∀ (σ : Type) (f : Kind → List Entry → σ → σ) (x : σ),
        (g.into (Sink.each f)).run (start.withSink x) =
          (collected.1,
            collected.2.withSink
              (deliveries.foldl (fun x delivery => f delivery.1 delivery.2 x) x)) := by
  have hmap : (g.into Sink.map).sink.Accepting := Sink.accepting_map
  obtain ⟨added, hevents, hsink, hchannel⟩ :=
    run_into hmap Sink.accepting_channel (start.withSink models) []
  rw [feed_into_channel, List.nil_append] at hchannel
  refine ⟨added, added.filterMap Event.delivery?, hevents, rfl, hsink, hchannel, ?_⟩
  · intro σ f x
    obtain ⟨added', hevents', -, heach⟩ :=
      run_into hmap (Sink.accepting_each f) (start.withSink models) x
    -- the run into the map is the same one, so both accounts of its events are
    have hsame : added' = added := List.append_cancel_left (hevents'.symm.trans hevents)
    rw [hsame] at heach
    exact heach

end Generator

end LibraryModels
