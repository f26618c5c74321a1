import LibraryModels.Proofs.Codeql.Reports
import Mathlib.Data.List.DropRight

/-!
# How a query ends

A process that fails is described by its last lines, of which no more than twenty are kept while it
runs.  What kind of failure it is does not depend on these: a line that says that the query does not
compile is not forgotten when it is no longer kept.
-/

namespace LibraryModels

namespace Codeql

variable {line : String} {lines : List String}

/-! ## What is kept of the lines -/

/-- A full window lets its oldest element go before it takes the next one. -/
theorem tail_rtake
    {α : Type} (xs : List α) (n : Nat) :
    (if (xs.rtake (n + 1)).length = n + 1 then (xs.rtake (n + 1)).tail else xs.rtake (n + 1)) =
      xs.rtake n := by
  rw [List.rtake, List.rtake, List.length_drop]
  split
  · rw [List.tail_drop]
    congr 1
    omega
  · congr 1
    omega

theorem Kept.add_window (lines : List String) (fault : Bool) (line : String) :
    Kept.add ⟨lines.rtake keptLines, fault⟩ line =
      ⟨(lines ++ [line]).rtake keptLines, fault || isCompileFault line⟩ := by
  obtain ⟨n, hn⟩ : ∃ n, keptLines = n + 1 := ⟨_, rfl⟩
  rw [Kept.add, hn, List.rtake_concat_succ, ← tail_rtake lines n]

/-- The last lines are kept, and whether any line said that the query does not compile. -/
theorem Kept.ofLines_eq (lines : List String) :
    Kept.ofLines lines = ⟨lines.rtake keptLines, lines.any isCompileFault⟩ := by
  -- from the end of the lines, where the next one is kept
  induction lines using List.reverseRecOn with
  | nil => rfl
  | append_singleton lines line ih =>
      rw [Kept.ofLines, List.foldl_append, ← Kept.ofLines, ih, List.foldl_cons, List.foldl_nil,
        Kept.add_window, List.any_append, List.any_cons, List.any_nil, Bool.or_false]

/-! ## Lines about compiling -/

/-- A line that says, after white space, that there is an error in the query. -/
def SaysError (line : String) : Prop :=
  ∃ blanks rest, line.toList = blanks ++ "ERROR:".toList ++ rest ∧
    ∀ c ∈ blanks, Text.isBlank c = true

theorem isCompileFault_iff : isCompileFault line = true ↔ SaysError line := by
  rw [isCompileFault, beginsWith, List.isPrefixOf_iff_prefix, Text.trimStart]
  constructor
  · rintro ⟨rest, hrest⟩
    refine ⟨line.toList.takeWhile Text.isBlank, rest, ?_, ?_⟩
    · rw [List.append_assoc, hrest, List.takeWhile_append_dropWhile]
    · intro c hc
      exact List.mem_takeWhile_imp hc
  · rintro ⟨blanks, rest, hline, hblanks⟩
    rw [hline, List.append_assoc, List.dropWhile_append_of_pos hblanks]
    exact List.prefix_append _ rest

/-! ## The failure of a process -/

/-- The failure with a message, which is one of compiling if any line says so. -/
structure FailsWith (lines : List String) (message : String)
    (result : Except RunError FilePath) : Prop where
  compilation_iff :
    result = .error (.queryCompilation message) ↔ ∃ line ∈ lines, SaysError line
  engine_iff :
    result = .error (.queryEngine message) ↔ ∀ line ∈ lines, ¬ SaysError line

theorem failsWith_of_any (lines : List String) (message : String) :
    FailsWith lines message
      (.error (if lines.any isCompileFault then .queryCompilation message
        else .queryEngine message)) := by
  have hany : lines.any isCompileFault = true ↔ ∃ line ∈ lines, SaysError line := by
    simp only [List.any_eq_true, isCompileFault_iff]
  constructor
  · rw [← hany]
    cases lines.any isCompileFault <;> simp
  · have hnone : (∀ line ∈ lines, ¬ SaysError line) ↔ ¬ ∃ line ∈ lines, SaysError line := by
      simp only [not_exists, not_and]
    rw [hnone, ← hany]
    cases lines.any isCompileFault <;> simp

theorem exists_failsWith (query : FilePath) (status : ExitStatus) (lines : List String) :
    ∃ earlier last, lines = earlier ++ last ∧ last.length = min 20 lines.length ∧
      FailsWith lines
        (query.text ++ " exited with " ++ status.text ++ ": " ++ "\n".intercalate last)
        (.error (queryFailure query status (lineReports lines))) := by
  refine ⟨lines.rdrop 20, lines.rtake 20, (List.take_append_drop _ _).symm, ?_, ?_⟩
  · rw [List.rtake, List.length_drop]
    omega
  · rw [queryFailure, map_message_lineReports, Kept.ofLines_eq]
    exact failsWith_of_any lines _

/-! ## The run of a query -/

section Run

variable {host : Host} {codeql : FilePath} {database : Database} {query : Query} {w : World}
variable {p : Execution}

/-- How the run of a query ends, by the lines of its process and the way this ended. -/
structure Outcome (host : Host) (query : Query) (w : World) (p : Execution)
    (reply : QueryReply) : Prop where
  /-- Only the exit status counts for success, whatever the lines say. -/
  ok_iff : ∀ lines status, p.Finished lines status →
    (reply.reply.result = .ok (resultsFile host query w) ↔ status = .code 0)
  /-- The message has the last twenty lines, and its kind is decided by all of them. -/
  failure : ∀ lines status, p.Finished lines status → status ≠ .code 0 →
    ∃ earlier last, lines = earlier ++ last ∧ last.length = min 20 lines.length ∧
      FailsWith lines
        (query.path.text ++ " exited with " ++ status.text ++ ": " ++ "\n".intercalate last)
        reply.reply.result
  /-- The first line that is no text ends the run, and is not reported. -/
  fault : (∃ fault, .error fault ∈ p.errorLines) →
    ∃ lines fault, p.BreaksAfter lines fault ∧
      reply.reply.result = .error (.file (.brokenLine fault)) ∧
      reply.reports = startReport :: lineReports lines

theorem run_outcome
    (hstops : ∀ report, host.stops report = false)
    (hstarts : Starts host codeql database query w p) :
    Outcome host query w p (run host codeql database query false w).1 := by
  rw [run_of_starts hstarts]
  constructor
  · intro lines status hfinished
    rw [queryReply_of_finished hstops hfinished, ← ExitStatus.isSuccess_iff]
    cases status.isSuccess with
    | true => simp
    | false => simp
  · intro lines status hfinished hstatus
    rw [Ne, ← ExitStatus.isSuccess_iff] at hstatus
    rw [queryReply_of_finished hstops hfinished, if_neg hstatus]
    exact exists_failsWith query.path status lines
  · rintro ⟨fault, hfault⟩
    obtain ⟨lines, first, hbreaks⟩ := Execution.exists_breaksAfter hfault
    refine ⟨lines, first, hbreaks, ?_⟩
    rw [queryReply_of_breaksAfter hstops hbreaks]
    exact ⟨rfl, rfl⟩

/-- A line that says that a query does not compile, and twenty more lines. -/
def fadingLines : List String :=
  "  ERROR: no such type" :: "abcdefghijklmnopqrst".toList.map String.singleton

def fadingProcess : Execution :=
  ⟨[], Execution.written fadingLines, some (.code 2)⟩

/-- The line that decides the kind of a failure need not be in its message. -/
theorem run_outcome_fading :
    (∀ report, (sameProcess fadingProcess).stops report = false) ∧
      Starts (sameProcess fadingProcess) ⟨"codeql"⟩ smallDatabase smallQuery {} fadingProcess ∧
      fadingProcess.Finished fadingLines (.code 2) ∧
      (run (sameProcess fadingProcess) ⟨"codeql"⟩ smallDatabase smallQuery false
          {}).1.reply.result =
        .error (.queryCompilation
          ("q.ql exited with exit status: 2: a\nb\nc\nd\ne\nf\ng\nh\ni\nj\nk\nl\nm\nn\n" ++
            "o\np\nq\nr\ns\nt")) := by
  have hstops : ∀ report, (sameProcess fadingProcess).stops report = false := fun _ => rfl
  have hstarts := starts_sameProcess fadingProcess
  have hfinished : fadingProcess.Finished fadingLines (.code 2) := by
    have hwritable : ∀ line ∈ fadingLines, Execution.Writable line := by decide +kernel
    exact Execution.finished_written hwritable [] (.code 2)
  have houtcome := run_outcome hstops hstarts
  refine ⟨hstops, hstarts, hfinished, ?_⟩
  obtain ⟨earlier, last, hlines, hlength, hfails⟩ :=
    houtcome.failure fadingLines (.code 2) hfinished (by decide)
  have hlast : last = fadingLines.tail := by
    have hparts : ["  ERROR: no such type"] ++ fadingLines.tail = earlier ++ last := hlines
    exact (List.append_inj_right' hparts hlength.symm).symm
  rw [hlast] at hfails
  have hsays : ∃ line ∈ fadingLines, SaysError line :=
    ⟨"  ERROR: no such type", List.mem_cons_self, isCompileFault_iff.1 (by decide +kernel)⟩
  rw [hfails.compilation_iff.2 hsays]
  decide +kernel

end Run

end Codeql

end LibraryModels
