import LibraryModels.Proofs.Generator.Run

/-!
# One bar for a whole run

What an engine reports while the query of a stage runs is shown to the caller report by report, on
the slice of that stage.  The stages that a run begins are numbered in order, so the slices of a
run follow one another, and a bar that never goes back within a stage never goes back at all.  This
does not depend on how the stages end or on why a run stops.
-/

namespace LibraryModels

/-- The steps of a stage do not go back and stay within its slice. -/
structure Steady (reports : List Report) : Prop where
  ascending : reports.Pairwise fun a b => a.step ≤ b.step
  bounded : ∀ report ∈ reports, report.step ≤ Progress.stageSteps

namespace StageRecord

variable {r : StageRecord} {p : Progress} {records : List StageRecord}

/-- Within the slice of a stage. -/
def Within (r : StageRecord) (p : Progress) : Prop :=
  r.stage.index * 1000 ≤ p.step ∧ p.step ≤ (r.stage.index + 1) * 1000

theorem within_of_mem_progress
    (hsteady : Steady r.reports) (hp : p ∈ r.progress) :
    r.Within p := by
  obtain ⟨report, hreport, rfl⟩ := List.mem_map.1 hp
  have hbound := hsteady.bounded report hreport
  simp only [Within, Progress.ofStage, Progress.stageSteps] at hbound ⊢
  omega

theorem pairwise_progress
    (hsteady : Steady r.reports) :
    r.progress.Pairwise fun p q => p.step ≤ q.step := by
  rw [progress, List.pairwise_map]
  apply hsteady.ascending.imp
  intro a b hab
  exact Nat.add_le_add_left hab _

theorem isClear_of_mem_progress
    (hp : p ∈ r.progress) :
    p.isClear = false := by
  obtain ⟨report, -, rfl⟩ := List.mem_map.1 hp
  rw [Progress.isClear, beq_eq_false_iff_ne]
  intro hclear
  have hmax := congrArg Progress.maxStep hclear
  simp [Progress.ofStage, Progress.clear, Progress.lastStep] at hmax

/-- The slice of a later stage begins where that of an earlier one has ended. -/
theorem pairwise_flatMap_progress
    (hsteady : ∀ r ∈ records, Steady r.reports)
    (hindices : records.Pairwise fun a b => a.stage.index < b.stage.index) :
    (records.flatMap progress).Pairwise fun p q => p.step ≤ q.step := by
  rw [List.pairwise_flatMap]
  constructor
  · intro r hr
    exact pairwise_progress (hsteady r hr)
  · apply hindices.imp_of_mem
    intro a b ha hb hab p hp q hq
    have hpa := (within_of_mem_progress (hsteady a ha) hp).2
    have hqb := (within_of_mem_progress (hsteady b hb) hq).1
    calc p.step ≤ (a.stage.index + 1) * 1000 := hpa
      _ ≤ b.stage.index * 1000 := Nat.mul_le_mul_right 1000 hab
      _ ≤ q.step := hqb

end StageRecord

namespace Generator

variable {ε τ : Type}
variable {g : Generator ε τ} {stages : List Stage} {records : List StageRecord}
variable {s t : RunState ε τ} {result : Except RunError Unit}

/-- The stages that a run begins are numbered from zero on. -/
theorem indices_of_initial
    (h : records.map StageRecord.stage <+: Stage.all) :
    (records.map fun r => r.stage.index) = List.range records.length := by
  have hall : Stage.all.map Stage.index = List.range 4 := by decide
  have hindices : (records.map fun r => r.stage.index) <+: List.range 4 := by
    have hmap := h.map Stage.index
    rwa [List.map_map, hall] at hmap
  have hlength := hindices.length_le
  rw [List.length_map, List.length_range] at hlength
  rw [List.prefix_iff_eq_take.1 hindices, List.take_range, List.length_map, Nat.min_eq_left hlength]

theorem pairwise_index_of_initial
    (h : records.map StageRecord.stage <+: Stage.all) :
    records.Pairwise fun a b => a.stage.index < b.stage.index := by
  have hrange : (records.map fun r => r.stage.index).Pairwise (· < ·) := by
    rw [indices_of_initial h]
    exact List.pairwise_lt_range
  exact List.pairwise_map.1 hrange

theorem index_lt_of_initial
    {r : StageRecord}
    (h : records.map StageRecord.stage <+: Stage.all) (hr : r ∈ records) :
    r.stage.index < 4 := by
  have hall : ∀ stage ∈ Stage.all, stage.index < 4 := by decide
  exact hall r.stage (h.subset (List.mem_map_of_mem hr))

/-- A record has the reports of the engine's answer to the query of its stage. -/
theorem Ends.reports_eq
    {stage : Stage} {r : StageRecord}
    (h : g.Ends stage s r t) :
    (g.queried r.stage s).1.reports = r.reports := by
  rw [h.stage_eq]
  cases h with
  | engineError hquery | infoError hquery | skipped hquery | decodeError hquery
  | refused hquery | delivered hquery => rw [hquery]

/--
The updates of a run: those that the records of its stages account for, with the steps of a stage
on its slice of one bar.
-/
structure Bar (g : Generator ε τ) (start : RunState ε τ) (records : List StageRecord)
    (events : List Event) : Prop where
  /-- The records follow the answers, stage after stage. -/
  passes : g.Passes Stage.all start records (g.run start).1 (g.run start).2
  events_eq : (g.run start).2.events = start.events ++ events
  queries_eq : events.filterMap Event.query? = records.map fun r => g.query r.stage
  reported : ∀ r ∈ records, ∃ s, (g.queried r.stage s).1.reports = r.reports
  indices_eq : (records.map fun r => r.stage.index) = List.range records.length
  /-- There is one update for each report, in order, and there are no others. -/
  updates_eq : events.filterMap Event.progress? = records.flatMap fun r =>
    r.reports.map fun report =>
      { step := r.stage.index * 1000 + report.step
        maxStep := 4000
        message := "Generating " ++ r.stage.kind.name ++ " model: " ++ report.message }
  not_clear : ∀ p ∈ events.filterMap Event.progress?, p.isClear = false
  ascending : (∀ r ∈ records, Steady r.reports) →
    (events.filterMap Event.progress?).Pairwise fun p q => p.step ≤ q.step
  bounded : (∀ r ∈ records, Steady r.reports) →
    ∀ p ∈ events.filterMap Event.progress?, p.step ≤ 4000
  within : ∀ r ∈ records, Steady r.reports → ∀ p ∈ r.progress, r.Within p

/-- Whatever the engine and the sink do, the updates of a run are on one bar. -/
theorem run_shows_one_bar (g : Generator ε τ) (start : RunState ε τ) :
    ∃ records events, g.Bar start records events := by
  obtain ⟨records, hpasses⟩ := g.exists_passes start
  have hinitial := hpasses.stages_initial
  refine ⟨records, records.flatMap g.stageEvents, ?_⟩
  exact
    { passes := hpasses
      events_eq := hpasses.between.events_eq
      queries_eq := g.queries_eq records
      reported := by
        intro r hr
        obtain ⟨stage, s, t, hends⟩ := hpasses.exists_ends_of_mem hr
        exact ⟨s, hends.reports_eq⟩
      indices_eq := indices_of_initial hinitial
      updates_eq := progress_eq records
      not_clear := by
        intro p hp
        rw [progress_eq] at hp
        obtain ⟨r, _, hp⟩ := List.mem_flatMap.1 hp
        exact StageRecord.isClear_of_mem_progress hp
      ascending := by
        intro hsteady
        rw [progress_eq]
        exact StageRecord.pairwise_flatMap_progress hsteady (pairwise_index_of_initial hinitial)
      bounded := by
        intro hsteady p hp
        rw [progress_eq] at hp
        obtain ⟨r, hr, hp⟩ := List.mem_flatMap.1 hp
        have hslice := (StageRecord.within_of_mem_progress (hsteady r hr) hp).2
        have hindex := index_lt_of_initial hinitial hr
        omega
      within := fun _ _ hsteady _ => StageRecord.within_of_mem_progress hsteady }

end Generator

end LibraryModels
