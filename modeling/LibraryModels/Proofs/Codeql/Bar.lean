import LibraryModels.Proofs.Codeql.Reports

/-!
# The bar of a run with the executable

A query that is not interrupted reports that it begins, every line, and its end if its process was
successful.  Whatever the processes of a run print and however they end, the reports of every query
are steady, so the bar that the caller sees does not go back.
-/

namespace LibraryModels

namespace Codeql

/-! ## One query -/

section Query

variable {stops : Report → Bool} {p : Execution} {lines : List String} {status : ExitStatus}

/-- How a query moves on with the lines of its process. -/
structure Advance (lines : List String) (status : ExitStatus) (reports : List Report) : Prop where
  /-- There is one report for every line, with the furthest phase that the lines so far tell. -/
  reports_eq : reports = ⟨0, "Compiling and running query"⟩ ::
    ((lines.mapIdx fun i line => ⟨furthest (lines.take (i + 1)), line⟩) ++
      if status = .code 0 then [⟨1000, "Query finished"⟩] else [])
  steady : Steady reports
  last_iff : (reports.getLast?.map Report.step = some 1000) ↔ status = .code 0
  /-- No line reaches the last step. -/
  reached_iff : (∃ report ∈ reports, report.step = 1000) ↔ status = .code 0

theorem step_lt_of_mem_lineReports
    {report : Report}
    (h : report ∈ startReport :: lineReports lines) :
    report.step < 1000 := by
  rcases List.mem_cons.1 h with heq | hmem
  · rw [heq]
    decide
  · exact Nat.lt_of_le_of_lt ((onward_lineReports lines).within report hmem).2 (by decide)

theorem advance_queryReply
    (hstops : ∀ report, stops report = false) (hfinished : p.Finished lines status)
    (query results : FilePath) :
    Advance lines status (queryReply stops query results p).reports := by
  have hsteady := steady_queryReply stops query results p
  rw [queryReply_of_finished hstops hfinished] at hsteady ⊢
  by_cases hstatus : status = .code 0
  · rw [if_pos (ExitStatus.isSuccess_iff.2 hstatus)] at hsteady ⊢
    exact
      { reports_eq := by
          rw [if_pos hstatus]
          rfl
        steady := hsteady
        last_iff := by
          rw [← List.cons_append, List.getLast?_concat]
          exact iff_of_true rfl hstatus
        reached_iff := iff_of_true ⟨endReport, by simp, rfl⟩ hstatus }
  · rw [if_neg fun h => hstatus (ExitStatus.isSuccess_iff.1 h)] at hsteady ⊢
    have hreached : ∀ report ∈ startReport :: lineReports lines, report.step ≠ 1000 := by
      intro report hreport
      exact Nat.ne_of_lt (step_lt_of_mem_lineReports hreport)
    exact
      { reports_eq := by
          rw [if_neg hstatus, List.append_nil]
          rfl
        steady := hsteady
        last_iff := by
          refine iff_of_false ?_ hstatus
          intro hlast
          obtain ⟨report, hreport, hstep⟩ := Option.map_eq_some_iff.1 hlast
          exact hreached report (List.mem_of_getLast? hreport) hstep
        reached_iff := by
          refine iff_of_false ?_ hstatus
          rintro ⟨report, hreport, hstep⟩
          exact hreached report hreport hstep }

end Query

/-! ## A whole run -/

section Run

variable {host : Host} {codeql : FilePath} {τ : Type} {g : Generator World τ}

theorem steady_of_ends
    {stage : Stage} {s t : RunState World τ} {r : StageRecord}
    (hengine : g.engine = engine host codeql) (h : g.Ends stage s r t) :
    Steady r.reports := by
  rw [← h.reports_eq, Generator.queried, hengine]
  exact steady_run host codeql _ _ _ _

/-- The updates that a run adds: they do not go back, and they stay on the bar. -/
theorem exists_events_of_engine
    (hengine : g.engine = engine host codeql) (start : RunState World τ) :
    ∃ events, (g.run start).2.events = start.events ++ events ∧
      (events.filterMap Event.progress?).Pairwise (fun p q => p.step ≤ q.step) ∧
      ∀ p ∈ events.filterMap Event.progress?, p.step ≤ 4000 := by
  obtain ⟨records, hpasses⟩ := g.exists_passes start
  have hinitial := hpasses.stages_initial
  have hsteady : ∀ r ∈ records, Steady r.reports := by
    intro r hr
    obtain ⟨stage, s, t, hends⟩ := hpasses.exists_ends_of_mem hr
    exact steady_of_ends hengine hends
  refine ⟨records.flatMap g.stageEvents, hpasses.between.events_eq, ?_, ?_⟩
  · rw [Generator.progress_eq]
    exact StageRecord.pairwise_flatMap_progress hsteady
      (Generator.pairwise_index_of_initial hinitial)
  · intro p hp
    rw [Generator.progress_eq] at hp
    obtain ⟨r, hr, hp⟩ := List.mem_flatMap.1 hp
    have hslice := (StageRecord.within_of_mem_progress (hsteady r hr) hp).2
    have hindex := Generator.index_lt_of_initial hinitial hr
    omega

end Run

/--
The reports of a query follow the lines of its process, and the bar of a run does not go back,
whatever its processes print and however they end.
-/
theorem bar_advances (host : Host) (codeql : FilePath) :
    (∀ database query w p lines status,
      (∀ report, host.stops report = false) → Starts host codeql database query w p →
      p.Finished lines status →
        Advance lines status (run host codeql database query false w).1.reports) ∧
    ∀ (τ : Type) (g : Generator World τ) (start : RunState World τ),
      g.engine = engine host codeql →
        ∃ events, (g.run start).2.events = start.events ++ events ∧
          (events.filterMap Event.progress?).Pairwise (fun p q => p.step ≤ q.step) ∧
          ∀ p ∈ events.filterMap Event.progress?, p.step ≤ 4000 := by
  constructor
  · intro database query w p lines status hstops hstarts hfinished
    rw [run_of_starts hstarts]
    exact advance_queryReply hstops hfinished query.path (resultsFile host query w)
  · intro τ g start hengine
    exact exists_events_of_engine hengine start

/-- Lines that tell several phases at once, and that tell an early one late. -/
def disorderedLines : List String :=
  ["Compiling: Evaluation done eval q", "  Evaluation done", "Compiling again"]

def disorderedProcess : Execution :=
  ⟨[], Execution.written disorderedLines, some (.code 0)⟩

theorem bar_advances_disordered :
    (∀ report, (sameProcess disorderedProcess).stops report = false) ∧
      Starts (sameProcess disorderedProcess) ⟨"codeql"⟩ smallDatabase smallQuery {}
        disorderedProcess ∧
      disorderedProcess.Finished disorderedLines (.code 0) ∧
      (run (sameProcess disorderedProcess) ⟨"codeql"⟩ smallDatabase smallQuery false {}).1.reports =
        [⟨0, "Compiling and running query"⟩, ⟨100, "Compiling: Evaluation done eval q"⟩,
          ⟨900, "  Evaluation done"⟩, ⟨900, "Compiling again"⟩, ⟨1000, "Query finished"⟩] := by
  have hstops : ∀ report, (sameProcess disorderedProcess).stops report = false := fun _ => rfl
  have hstarts := starts_sameProcess disorderedProcess
  have hfinished : disorderedProcess.Finished disorderedLines (.code 0) := by
    have hwritable : ∀ line ∈ disorderedLines, Execution.Writable line := by decide +kernel
    exact Execution.finished_written hwritable [] (.code 0)
  have hadvance := (bar_advances (sameProcess disorderedProcess) ⟨"codeql"⟩).1 _ _ _ _ _ _
    hstops hstarts hfinished
  refine ⟨hstops, hstarts, hfinished, ?_⟩
  rw [hadvance.reports_eq]
  decide +kernel

end Codeql

end LibraryModels
