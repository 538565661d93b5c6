import BulkSync.Proofs.Task.Outcome

/-! # Which failure is returned

The record takes the first failure that is handed in, and keeps it (`Run.firstError_stays`): a task that fails after
a failure has been recorded is not the one that is reported (`Run.late_failure`). A failure is signalled before it is
handed in, and the worker does this in two steps. If no other failure is signalled between them, the failure that
was signalled first is the one that is returned (`Run.first_to_signal`). Otherwise it can be overtaken, even by a
task that fails because it has seen the signal (`overtaken`). -/

namespace BulkSync.Batch

variable {σ : Type} {cancelled : σ → Bool} {tasks : List (Task σ)} {log : List Entry} {stages : Nat → Stage σ}
  {b : Batch σ} {error : TaskError}

/-- A failure is handed in once, after it was signalled. -/
theorem Consistent.handed_in (consistent : Consistent tasks log stages b) {before after : List Entry}
    (split : log = before ++ .recorded error :: after) :
    .signalled error ∈ before ∧ .recorded error ∉ before := by
  have inside : error.task < tasks.length := consistent.known (.recorded error) (by simp [split])
  have stage : stages error.task = .recorded error.cause :=
    (consistent.failure_mem inside).2.2.mp (by simp [split])
  have life := consistent.lives error.task inside
  rw [stage] at life
  obtain ⟨seen, last, -, own⟩ := life
  -- what the log tells of the task ends where the failure is handed in
  have ends : (begins error.task seen ++ [.failed error last, .signalled error]) ++ .recorded error :: [] =
      logOf error.task before ++ .recorded error :: logOf error.task after := by
    have whole : logOf error.task log =
        logOf error.task before ++ .recorded error :: logOf error.task after := by
      simp [split, logOf, Entry.task]
    rw [← whole, own]
    simp
  obtain ⟨same, -, -⟩ := (List.append_cons_inj_of_notMem (by simp [begins]) (List.not_mem_nil)).mp ends
  constructor
  · have early : .signalled error ∈ logOf error.task before := by simp [← same]
    exact (mem_logOf.mp early).1
  · intro member
    have early : .recorded error ∈ logOf error.task before := mem_logOf.mpr ⟨member, rfl⟩
    rw [← same] at early
    simp [begins] at early

theorem Step.firstError {worker : Nat} {shown : Option Entry} {next : Batch σ}
    (stepped : Step cancelled b worker shown next) :
    next.firstError = b.firstError.or (shown.bind Entry.recorded?) := by
  cases stepped with
  | record => rfl
  | _ => exact Option.or_none.symm

namespace Run

variable {first middle : Batch σ} {schedule : List Nat} {concurrency : Nat} {s : σ}

theorem firstError_stays (run : Run cancelled middle schedule log b) (recorded : middle.firstError = some error) :
    b.firstError = some error := by
  induction run with
  | start => exact recorded
  | step run stepped inductionHypothesis => rw [(step_eq_some stepped).firstError, inductionHypothesis, Option.some_or]
  | outside run kept inductionHypothesis => exact inductionHypothesis

/-- A task that fails once a failure has been recorded leaves the failure of another task in the record. -/
theorem late_failure (run : Run cancelled (Batch.start concurrency tasks s) schedule log b) {seen : Signals}
    (failed : .failed error seen ∈ log) (late : seen.recorded = true) :
    ∃ other, b.firstError = some other ∧ other.task ≠ error.task := by
  induction run with
  | start => cases failed
  | outside run kept inductionHypothesis => exact inductionHypothesis failed
  | @step schedule log b next worker run stepped inductionHypothesis =>
    have step := step_eq_some stepped
    suffices ∃ other, b.firstError = some other ∧ other.task ≠ error.task by
      obtain ⟨other, recorded, apart⟩ := this
      exact ⟨other, (Run.start.step stepped).firstError_stays recorded, apart⟩
    rcases List.mem_append.mp failed with before | now
    · exact inductionHypothesis before
    · obtain ⟨stages, consistent⟩ := run.consistent
      rw [Option.mem_toList.mp now] at step
      cases step with
      | @fail index action rest cause shared placed ready ran =>
        obtain ⟨other, recorded⟩ := Option.isSome_iff_exists.mp late
        refine ⟨other, recorded, fun same => ?_⟩
        -- the task that fails is still running, and the other one has failed before
        obtain ⟨-, inside, running⟩ := consistent.crew.held worker index _ (congrArg load placed)
        have member := consistent.recorded_mem recorded
        have stage := (consistent.failure_mem (consistent.known _ member)).2.2.mp member
        rw [show other.task = index from same, running] at stage
        cases stage

/-- The failure that is signalled first is returned if no other is signalled before it has been handed in. -/
theorem first_to_signal (run : Run cancelled (Batch.start concurrency tasks s) schedule log b)
    {before between after : List Entry} (split : log = before ++ .signalled error :: between ++ .recorded error :: after)
    (first : ∀ other, .signalled other ∉ before) (alone : ∀ other, .signalled other ∉ between) :
    b.firstError = some error := by
  obtain ⟨stages, consistent⟩ := run.consistent
  obtain ⟨-, once⟩ := consistent.handed_in split
  have none : (before ++ .signalled error :: between).findSome? Entry.recorded? = none := by
    rw [List.findSome?_eq_none_iff]
    intro entry member
    cases entry with
    | recorded other =>
      -- what is handed in was signalled before, and only this failure was signalled
      exfalso
      obtain ⟨early, late, parts⟩ := List.append_of_mem member
      have handed : log = early ++ .recorded other :: (late ++ .recorded error :: after) := by simp [split, parts]
      obtain ⟨signalled, -⟩ := consistent.handed_in handed
      have earlier : .signalled other ∈ before ++ .signalled error :: between := by
        rw [parts]
        exact List.mem_append_left _ signalled
      simp only [List.mem_append, List.mem_cons, first, alone, or_false, false_or, Entry.signalled.injEq] at earlier
      exact once (earlier ▸ member)
    | _ => rfl
  rw [consistent.record, split, List.findSome?_append, none]
  rfl

end Run

/-- Two tasks: one fails, and the other one fails once it sees that the batch is to stop. -/
def hasty : List (Task Bool) :=
  [[.ofFun fun _ up => (some (.reported "cause"), up)],
    [⟨fun seen _ => seen.shouldStop, fun _ up => (some (.reported "consequence"), up)⟩]]

/-- The failure of the first task raises the signal, and the second task fails because of that; yet its failure is the
one that is returned. -/
theorem overtaken : ∃ log b, Run id (start 2 hasty false) [0, 0, 0, 1, 1, 1, 0, 0, 1, 1, 1, 0, 0, 1] log b ∧ b.Over ∧
    log.findSome? Entry.signalled? = some ⟨0, .reported "cause"⟩ ∧
    .failed ⟨1, .reported "consequence"⟩ ⟨true, false, false⟩ ∈ log ∧
    b.result id = .error ⟨1, .reported "consequence"⟩ := by
  obtain ⟨log, b, followed, through, signalled, failed, result⟩ :
      ∃ log b, (start 2 hasty false).follow id [0, 0, 0, 1, 1, 1, 0, 0, 1, 1, 1, 0, 0, 1] = some (log, b) ∧
        (∀ worker < b.workers.size, b.isLive worker = false) ∧
        log.findSome? Entry.signalled? = some ⟨0, .reported "cause"⟩ ∧
        .failed ⟨1, .reported "consequence"⟩ ⟨true, false, false⟩ ∈ log ∧
        b.result id = .error ⟨1, .reported "consequence"⟩ :=
    ⟨_, _, rfl, by decide, rfl, by decide, rfl⟩
  exact ⟨log, b, run_of_follow followed, over_iff.mpr through, signalled, failed, result⟩

end BulkSync.Batch
