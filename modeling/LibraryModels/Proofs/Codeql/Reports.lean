import LibraryModels.Codeql
import LibraryModels.Proofs.Execution
import LibraryModels.Proofs.Generator.Progress

/-!
# What a query reports

The step of a report is the furthest that any line so far has told.  So the steps of a query do not
go back, whatever the order of the lines, and no line can tell that the query has finished.
-/

namespace LibraryModels

namespace Codeql

variable {stops : Report → Bool} {line : String} {step : Nat} {reports : List Report}

/-! ## Phases -/

/-- The furthest phase that some lines tell, or the beginning. -/
def furthest (lines : List String) : Nat :=
  (lines.filterMap phase?).max?.getD 0

theorem furthest_concat (lines : List String) (line : String) :
    furthest (lines ++ [line]) = stepAfter (furthest lines) line := by
  have hfold : ∀ lines, furthest lines = (lines.filterMap phase?).foldl max 0 := by
    intro lines
    rw [furthest, List.foldl_max, Nat.zero_max]
  rw [hfold, hfold, stepAfter, List.filterMap_append, List.foldl_append]
  cases hphase : phase? line with
  | none => simp [hphase]
  | some s => simp [hphase]

theorem phase?_le
    {s : Nat}
    (h : phase? line = some s) :
    s ≤ 900 := by
  unfold phase? at h
  dsimp only [Progress.stageSteps] at h
  split at h
  · cases h
    decide
  · split at h
    · cases h
      decide
    · split at h
      · cases h
        decide
      · cases h

theorem stepAfter_bounds
    (hstep : step ≤ 900) (line : String) :
    step ≤ stepAfter step line ∧ stepAfter step line ≤ 900 := by
  unfold stepAfter
  split
  · next s hphase =>
      have hs := phase?_le hphase
      omega
  · exact ⟨Nat.le_refl step, hstep⟩

/-! ## Any lines -/

/-- Reports that go on from a step, where no step is the last one. -/
structure Onward (step : Nat) (reports : List Report) : Prop where
  ascending : reports.Pairwise fun a b => a.step ≤ b.step
  within : ∀ report ∈ reports, step ≤ report.step ∧ report.step ≤ 900

theorem Onward.nil (step : Nat) : Onward step [] :=
  ⟨.nil, by simp⟩

theorem Onward.cons
    {report : Report}
    (hleast : step ≤ report.step) (hmost : report.step ≤ 900) (h : Onward report.step reports) :
    Onward step (report :: reports) where
  ascending := List.pairwise_cons.2 ⟨fun later hlater => (h.within later hlater).1, h.ascending⟩
  within := by
    rw [List.forall_mem_cons]
    refine ⟨⟨hleast, hmost⟩, ?_⟩
    intro later hlater
    obtain ⟨hlow, hhigh⟩ := h.within later hlater
    exact ⟨Nat.le_trans hleast hlow, hhigh⟩

/-- The reports of lines, wherever looking at them ends. -/
theorem onward_watch
    (stops : Report → Bool) (hstep : step ≤ 900) (lines : List (Except Text.Utf8Fault String)) :
    Onward step (watch stops step lines).1 := by
  -- on the lines that are left, from any step, since each line leaves a step of its own
  induction lines generalizing step with
  | nil => exact .nil step
  | cons line rest ih =>
      cases line with
      | error fault => exact .nil step
      | ok line =>
          obtain ⟨hleast, hmost⟩ := stepAfter_bounds hstep line
          rw [watch]
          split
          · exact .cons hleast hmost (.nil _)
          · exact .cons hleast hmost (ih hmost)

namespace Onward

theorem steady_started
    (h : Onward 0 reports) :
    Steady (startReport :: reports) where
  ascending := List.pairwise_cons.2 ⟨fun _ _ => Nat.zero_le _, h.ascending⟩
  bounded := by
    rw [List.forall_mem_cons]
    refine ⟨Nat.zero_le _, ?_⟩
    intro report hreport
    exact Nat.le_trans (h.within report hreport).2 (by decide)

theorem steady_finished
    (h : Onward 0 reports) :
    Steady (startReport :: (reports ++ [endReport])) := by
  have hbefore := h.steady_started
  rw [← List.cons_append]
  constructor
  · rw [List.pairwise_append]
    refine ⟨hbefore.ascending, List.pairwise_singleton _ _, ?_⟩
    intro report hreport last hlast
    rw [List.mem_singleton.1 hlast]
    exact hbefore.bounded report hreport
  · intro report hreport
    rcases List.mem_append.1 hreport with hreport | hreport
    · exact hbefore.bounded report hreport
    · rw [List.mem_singleton.1 hreport]
      exact Nat.le_refl _

end Onward

/-- However its process goes, a query reports its beginning, then lines, then perhaps its end. -/
theorem steady_queryReply (stops : Report → Bool) (query results : FilePath) (p : Execution) :
    Steady (queryReply stops query results p).reports := by
  have honward := onward_watch stops (Nat.zero_le 900) p.errorLines
  unfold queryReply
  dsimp only
  split
  · exact (Onward.nil 0).steady_started
  · split
    · exact honward.steady_started
    · exact honward.steady_started
    · exact honward.steady_started
    · split
      · exact honward.steady_finished
      · exact honward.steady_started

theorem steady_run
    (host : Host) (codeql : FilePath) (database : Database) (query : Query) (cancelled : Bool)
    (w : World) :
    Steady (run host codeql database query cancelled w).1.reports := by
  have hnone : Steady [] := ⟨.nil, by simp⟩
  unfold run
  dsimp only
  split
  · exact hnone
  · split
    · exact hnone
    · split
      · exact (Onward.nil 0).steady_started
      · exact steady_queryReply _ _ _ _

/-! ## Lines of text -/

/-- The reports of lines that come after others: every line, with the furthest phase so far. -/
def reportsAfter (seen lines : List String) : List Report :=
  lines.mapIdx fun i line => ⟨furthest (seen ++ lines.take (i + 1)), line⟩

theorem reportsAfter_cons (seen : List String) (line : String) (lines : List String) :
    reportsAfter seen (line :: lines) =
      ⟨furthest (seen ++ [line]), line⟩ :: reportsAfter (seen ++ [line]) lines := by
  simp only [reportsAfter, List.mapIdx_cons, List.take_succ_cons, List.take_zero,
    List.append_assoc, List.singleton_append]

theorem watch_texts
    (hstops : ∀ report, stops report = false) (seen lines : List String)
    (rest : List (Except Text.Utf8Fault String)) :
    watch stops (furthest seen) (lines.map .ok ++ rest) =
      (reportsAfter seen lines ++ (watch stops (furthest (seen ++ lines)) rest).1,
        (watch stops (furthest (seen ++ lines)) rest).2) := by
  -- on the lines that are left, where each joins those that were seen
  induction lines generalizing seen with
  | nil => simp [reportsAfter]
  | cons line lines ih =>
      rw [List.map_cons, List.cons_append, watch, ← furthest_concat]
      dsimp only
      rw [hstops, ih, reportsAfter_cons, List.append_assoc, List.singleton_append]
      rfl

/-- The reports of all lines of a query. -/
def lineReports (lines : List String) : List Report :=
  reportsAfter [] lines

theorem lineReports_eq (lines : List String) :
    lineReports lines = lines.mapIdx fun i line => ⟨furthest (lines.take (i + 1)), line⟩ := rfl

theorem map_message_lineReports (lines : List String) :
    (lineReports lines).map Report.message = lines := by
  apply List.ext_getElem?
  intro i
  rw [lineReports_eq, List.getElem?_map, List.getElem?_mapIdx, Option.map_map]
  exact congrFun Option.map_id _

theorem watch_lineReports
    (hstops : ∀ report, stops report = false) (lines : List String) :
    watch stops 0 (lines.map .ok) = (lineReports lines, .complete) := by
  have h := watch_texts hstops [] lines []
  rwa [List.append_nil, watch, List.append_nil] at h

theorem watch_lineReports_of_fault
    (hstops : ∀ report, stops report = false) (lines : List String) (fault : Text.Utf8Fault)
    (after : List (Except Text.Utf8Fault String)) :
    watch stops 0 (lines.map .ok ++ .error fault :: after) =
      (lineReports lines, .broken fault) := by
  have h := watch_texts hstops [] lines (.error fault :: after)
  rwa [watch, List.append_nil] at h

theorem onward_lineReports (lines : List String) :
    Onward 0 (lineReports lines) := by
  have h := onward_watch (fun _ => false) (Nat.zero_le 900) (lines.map .ok)
  rwa [watch_lineReports fun _ => rfl] at h

/-! ## Replies -/

section Reply

variable {p : Execution} {lines : List String} {status : ExitStatus}

theorem queryReply_of_finished
    (hstops : ∀ report, stops report = false) (hfinished : p.Finished lines status)
    (query results : FilePath) :
    queryReply stops query results p =
      if status.isSuccess then
        ⟨startReport :: (lineReports lines ++ [endReport]), [], ⟨.ok results, false⟩⟩
      else
        ⟨startReport :: lineReports lines, [],
          ⟨.error (queryFailure query status (lineReports lines)), false⟩⟩ := by
  unfold queryReply
  rw [hstops startReport, hstops endReport, if_neg Bool.false_ne_true, hfinished.errorLines_eq,
    watch_lineReports hstops, hfinished.ending_eq]

theorem queryReply_of_breaksAfter
    {fault : Text.Utf8Fault}
    (hstops : ∀ report, stops report = false) (hbreaks : p.BreaksAfter lines fault)
    (query results : FilePath) :
    queryReply stops query results p =
      ⟨startReport :: lineReports lines, [], ⟨.error (.file (.brokenLine fault)), false⟩⟩ := by
  obtain ⟨after, hlines⟩ := hbreaks
  unfold queryReply
  rw [hstops startReport, if_neg Bool.false_ne_true, hlines, watch_lineReports_of_fault hstops]

end Reply

/-! ## Started runs -/

section Started

variable {host : Host} {codeql : FilePath} {database : Database} {query : Query} {w : World}
variable {p : Execution}

/-- The directory of the next run of a query. -/
def runDirectory (host : Host) (query : Query) (w : World) : FilePath :=
  query.storageDir.entry (host.runName w.runs)

/-- Where the next run of a query leaves its results. -/
def resultsFile (host : Host) (query : Query) (w : World) : FilePath :=
  (runDirectory host query w).entry "results.bqrs"

/-- A run makes its directory and starts its process. -/
structure Starts (host : Host) (codeql : FilePath) (database : Database) (query : Query)
    (w : World) (p : Execution) : Prop where
  made : (w.files.makeDirectories (runDirectory host query w)).2 = .ok ()
  launched :
    (launch host codeql (runArguments database.path query.path (resultsFile host query w))
      { w with
        files := (w.files.makeDirectories (runDirectory host query w)).1
        runs := w.runs + 1 }).1 = .ok p

theorem run_of_starts
    (h : Starts host codeql database query w p) :
    (run host codeql database query false w).1 =
      queryReply host.stops query.path (resultsFile host query w) p := by
  obtain ⟨hmade, hlaunched⟩ := h
  unfold run
  rw [if_neg Bool.false_ne_true]
  dsimp only
  rw [← runDirectory]
  rcases hmake : w.files.makeDirectories (runDirectory host query w) with ⟨files, made⟩
  rw [hmake] at hmade hlaunched
  cases hmade
  dsimp only
  rw [← resultsFile]
  rcases hlaunch : launch host codeql _ _ with ⟨started, w'⟩
  rw [hlaunch] at hlaunched
  cases hlaunched
  rfl

/-- A host where every call starts one and the same process. -/
def sameProcess (p : Execution) : Host where
  start _ _ _ := .ok p
  runName _ := "run"

def smallDatabase : Database := ⟨"db", "java", ⟨"db"⟩⟩

def smallQuery : Query := ⟨⟨"q.ql"⟩, ⟨"out"⟩⟩

/-- Any process can be that of a run. -/
theorem starts_sameProcess (p : Execution) :
    Starts (sameProcess p) ⟨"codeql"⟩ smallDatabase smallQuery {} p where
  made := by
    show (FileSystem.makeDirectories {} (FilePath.entry ⟨"out"⟩ "run")).2 = .ok ()
    decide +kernel
  launched := by
    have harguments : (("codeql" :: runArguments ⟨"db"⟩ ⟨"q.ql"⟩
        ((FilePath.entry ⟨"out"⟩ "run").entry "results.bqrs")).any
          fun s => '\x00' ∈ s.toList) = false := by
      decide +kernel
    exact congrArg Prod.fst (if_neg (ne_true_of_eq_false harguments))

end Started

end Codeql

end LibraryModels
