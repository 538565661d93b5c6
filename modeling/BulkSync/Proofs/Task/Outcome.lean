import BulkSync.Proofs.Task.Progress
import Mathlib.Data.Finset.Card

/-! # How a batch ends, whatever the schedule

No task is executed twice, no more tasks are in flight than there are workers, and how the batch has ended in
the end tells what has become of its tasks (`any_schedule`). The end comes in bounded time unless tasks wait. -/

namespace BulkSync.Batch

variable {σ : Type} {cancelled : σ → Bool} {tasks : List (Task σ)} {log : List Entry} {stages : Nat → Stage σ}
  {b : Batch σ}

/-- The tasks that have begun and neither ended nor failed. -/
def inFlight (count : Nat) (log : List Entry) : Finset Nat :=
  (Finset.range count).filter fun task => .begun task ∈ log ∧ ∀ entry ∈ log, entry.closes task = false

/-- All that the log tells of a task is that it has begun once, all of its actions have succeeded, and it has
ended. -/
def Executed (number : Nat) (task : Task σ) (log : List Entry) : Prop :=
  ∃ seen, seen.length = task.length ∧ logOf number log = begins number seen ++ [.ended number]

/-- Nothing is left to begin: a failure was signalled, the flag is raised, or all numbers are claimed. -/
def Stopped (cancelled : σ → Bool) (b : Batch σ) : Prop :=
  b.failed = true ∨ cancelled b.shared = true ∨ b.slots.size ≤ b.next

/-- The flag is down wherever a run passes on its way from one batch to another. -/
def NeverRaised (cancelled : σ → Bool) (first last : Batch σ) : Prop :=
  ∀ before log middle after further, Run cancelled first before log middle →
    Run cancelled middle after further last → cancelled middle.shared = false

/-- What the result of a batch says. It finishes if and only if every task has been executed and the flag was
never raised; it reports the failure of one of the tasks that failed, if any did; and otherwise it is cancelled
exactly if the flag is raised in the end. -/
structure Outcome (cancelled : σ → Bool) (tasks : List (Task σ)) (first : Batch σ) (log : List Entry)
    (b : Batch σ) : Prop where
  finished : b.result cancelled = .ok .finished ↔
    (∀ index (inside : index < tasks.length), Executed index tasks[index] log) ∧ NeverRaised cancelled first b
  failed : (∃ error, b.result cancelled = .error error) ↔ ∃ error seen, .failed error seen ∈ log
  cause : ∀ error, b.result cancelled = .error error → ∃ seen, .failed error seen ∈ log
  cancelled : (∀ error seen, .failed error seen ∉ log) →
    (b.result cancelled = .ok .cancelled ↔ cancelled b.shared = true)

theorem lt_of_held {worker : Nat} {task : Nat × Stage σ} (found : b.held worker = some task) :
    worker < b.workers.size := by
  by_contra outside
  simp [held, place, Array.getD, outside, load] at found

namespace Consistent

theorem count_begun_le (consistent : Consistent tasks log stages b) (task : Nat) :
    log.count (.begun task) ≤ 1 := by
  rcases Nat.lt_or_ge task tasks.length with inside | behind
  · rw [← List.count_filter (p := fun entry => decide (entry.task = task)) (decide_eq_true rfl)]
    exact (consistent.lives task inside).begun_once
  · rw [List.count_eq_zero_of_not_mem fun member => ?_]
    · exact Nat.zero_le 1
    · exact Nat.not_lt.mpr behind (consistent.known _ member)

theorem claimed (consistent : Consistent tasks log stages b) {task : Nat}
    (touched : stages task ≠ .untouched) : task < b.next := by
  by_contra behind
  exact touched (consistent.crew.fresh task (Nat.not_lt.mp behind))

/-- A task that is in flight is running on one of the workers. -/
theorem card_inFlight_le (consistent : Consistent tasks log stages b) :
    (inFlight tasks.length log).card ≤ b.workers.size := by
  rw [← Finset.card_range b.workers.size]
  refine Finset.card_le_card_of_surjOn (fun worker => ((b.held worker).map Prod.fst).getD 0) fun task flying => ?_
  obtain ⟨inside, begun, notClosed⟩ : task < tasks.length ∧ .begun task ∈ log ∧
      ∀ entry ∈ log, entry.closes task = false := by simpa [inFlight] using flying
  have own : .begun task ∈ logOf task log := mem_logOf.mpr ⟨begun, rfl⟩
  have life := consistent.lives task inside
  obtain ⟨rest, running⟩ := life.running_of_begun own fun entry member => notClosed entry (mem_logOf.mp member).1
  obtain ⟨worker, found⟩ : ∃ worker, b.held worker = some (task, stages task) := by
    refine (consistent.crew.kept task inside (consistent.claimed (life.touched own))).resolve_left fun through => ?_
    rw [running] at through
    exact through
  exact ⟨worker, Finset.mem_coe.mpr (Finset.mem_range.mpr (lt_of_held found)), by simp [found]⟩

theorem failure_mem (consistent : Consistent tasks log stages b) {error : TaskError}
    (inside : error.task < tasks.length) :
    ((∃ last, .failed error last ∈ log) ↔ stages error.task = .failed error.cause ∨
      stages error.task = .signalled error.cause ∨ stages error.task = .recorded error.cause) ∧
    (.signalled error ∈ log ↔ stages error.task = .signalled error.cause ∨
      stages error.task = .recorded error.cause) ∧
    (.recorded error ∈ log ↔ stages error.task = .recorded error.cause) := by
  have own := (consistent.lives error.task inside).failure_mem error.cause
  simpa only [mem_logOf, Entry.task, and_true] using own

/-- What is signalled and what is handed in are failures of tasks. -/
theorem failed_of_entry (consistent : Consistent tasks log stages b) {error : TaskError}
    (member : .signalled error ∈ log ∨ .recorded error ∈ log) : ∃ seen, .failed error seen ∈ log := by
  have inside : error.task < tasks.length := by
    rcases member with signalled | recorded
    · exact consistent.known _ signalled
    · exact consistent.known _ recorded
  obtain ⟨failed, signalled, recorded⟩ := consistent.failure_mem inside
  rcases member with at_ | at_
  · exact failed.mpr (.inr (signalled.mp at_))
  · exact failed.mpr (.inr (.inr (recorded.mp at_)))

theorem recorded_mem (consistent : Consistent tasks log stages b) {error : TaskError}
    (recorded : b.firstError = some error) : .recorded error ∈ log := by
  rw [consistent.record] at recorded
  obtain ⟨entry, member, found⟩ := List.exists_of_findSome?_eq_some recorded
  cases entry with
  | recorded other =>
    cases found
    exact member
  | _ => cases found

/-! ## Once all workers are out of the loop -/

variable (consistent : Consistent tasks log stages b) (through : b.Over)

include consistent through

/-- A task that was claimed is done with once all workers are out of the loop. -/
theorem over_of_claimed {task : Nat} (inside : task < tasks.length) (claimed : task < b.next) :
    (stages task).Over := by
  refine (consistent.crew.kept task inside claimed).resolve_right ?_
  rintro ⟨worker, found⟩
  rw [held, through worker] at found
  cases found

theorem recorded_of_failed {error : TaskError} {seen : Signals} (failed : .failed error seen ∈ log) :
    .recorded error ∈ log := by
  have inside : error.task < tasks.length := consistent.known _ failed
  obtain ⟨failedAt, -, recordedAt⟩ := consistent.failure_mem inside
  have stage := failedAt.mp ⟨seen, failed⟩
  have touched : stages error.task ≠ .untouched := by
    rcases stage with at_ | at_ | at_ <;> rw [at_] <;> exact nofun
  refine recordedAt.mpr ?_
  have done := consistent.over_of_claimed through inside (consistent.claimed touched)
  rcases Stage.eq_of_over done with ended | ⟨cause, recorded⟩
  · simp [ended] at stage
  · obtain rfl : cause = error.cause := by simpa [recorded] using stage
    exact recorded

theorem firstError_isSome_iff : b.firstError.isSome ↔ ∃ error seen, .failed error seen ∈ log := by
  constructor
  · intro some
    obtain ⟨error, recorded⟩ := Option.isSome_iff_exists.mp some
    exact ⟨error, consistent.failed_of_entry (.inr (consistent.recorded_mem recorded))⟩
  · rintro ⟨error, seen, failed⟩
    rw [consistent.record, List.findSome?_isSome_iff]
    exact ⟨_, consistent.recorded_of_failed through failed, rfl⟩

/-- Without a failure nothing has been signalled. -/
theorem failed_eq_false (none : b.firstError = none) : b.failed = false := by
  rw [consistent.failed, Option.isSome_eq_false_iff, Option.isNone_iff_eq_none, List.findSome?_eq_none_iff]
  intro entry member
  cases entry with
  | signalled error =>
    have failed := (consistent.firstError_isSome_iff through).mpr ⟨error, consistent.failed_of_entry (.inl member)⟩
    simp [none] at failed
  | _ => rfl

/-- A batch that ends without a failure has executed every task, once all numbers are claimed. -/
theorem executed (none : b.firstError = none) (claimed : tasks.length ≤ b.next) {task : Nat}
    (inside : task < tasks.length) : Executed task tasks[task] log := by
  have done := consistent.over_of_claimed through inside (Nat.lt_of_lt_of_le inside claimed)
  rcases Stage.eq_of_over done with ended | ⟨cause, recorded⟩
  · have life := consistent.lives task inside
    rwa [ended] at life
  · have known : (⟨task, cause⟩ : TaskError).task < tasks.length := inside
    have failed := (consistent.failure_mem known).1.mpr (.inr (.inr recorded))
    simpa [none] using (consistent.firstError_isSome_iff through).mpr ⟨_, failed⟩

end Consistent

/-! ## The result -/

theorem result_eq_error_iff {error : TaskError} : b.result cancelled = .error error ↔ b.firstError = some error := by
  rw [result]
  cases b.firstError <;> simp

theorem result_eq_ok_iff {ending : Completion} : b.result cancelled = .ok ending ↔
    b.firstError = none ∧ completion (cancelled b.shared) = ending := by
  rw [result]
  cases b.firstError <;> simp

namespace Step

variable {worker : Nat} {shown : Option Entry} {next : Batch σ}

theorem size_workers (stepped : Step cancelled b worker shown next) : next.workers.size = b.workers.size := by
  cases stepped <;> exact Array.size_setIfInBounds

theorem keeps_raised (raised : ∀ task ∈ tasks, ∀ action ∈ task, action.KeepsRaised cancelled)
    (consistent : Consistent tasks log stages b) (stepped : Step cancelled b worker shown next)
    (up : cancelled b.shared = true) : cancelled next.shared = true := by
  cases stepped with
  | @act index action rest shared placed ready ran | @fail index action rest cause shared placed ready ran =>
    obtain ⟨inside, member⟩ := consistent.action_mem placed
    have kept := raised _ (List.getElem_mem inside) action member (b.signals cancelled) b.shared up
    rwa [ran] at kept
  | _ => exact up

/-- What stops a batch lasts, if the flag does. -/
theorem stopped (stepped : Step cancelled b worker shown next)
    (kept : cancelled b.shared = true → cancelled next.shared = true) (stopped : b.Stopped cancelled) :
    next.Stopped cancelled := by
  rcases stopped with failed | up | gone
  · refine .inl ?_
    cases stepped <;> first | exact failed | rfl
  · exact .inr (.inl (kept up))
  · refine .inr (.inr ?_)
    cases stepped with
    | claim | leave => exact Nat.le_succ_of_le gone
    | take => exact Array.size_setIfInBounds.trans_le gone
    | _ => exact gone

/-- A step moves its worker, and out of the loop only if the batch is stopped. -/
theorem moved (stepped : Step cancelled b worker shown next) :
    ∃ there, next.place = Function.update b.place worker there ∧ (there = .retired → next.Stopped cancelled) := by
  have live : ∀ {here}, b.place worker = here → here ≠ .retired → b.place worker ≠ .retired :=
    fun placed stays => placed ▸ stays
  cases stepped with
  | look placed =>
    refine ⟨_, place_move (live placed nofun) _, fun out => ?_⟩
    split at out
    · next stop =>
      rw [Signals.shouldStop, Bool.or_eq_true] at stop
      exact stop.imp_right .inl
    · cases out
  | leave placed gone => exact ⟨_, place_move (live placed nofun) _, fun _ => .inr (.inr (Nat.le_succ_of_le gone))⟩
  | claim placed | take placed | miss placed | finish placed | act placed | fail placed | signal placed
  | record placed => exact ⟨_, place_move (live placed nofun) _, nofun⟩

end Step

namespace Run

variable {first middle : Batch σ} {schedule later : List Nat} {further : List Entry}

theorem size_workers (run : Run cancelled first schedule log b) : b.workers.size = first.workers.size := by
  induction run with
  | start => rfl
  | step run stepped inductionHypothesis => exact (step_eq_some stepped).size_workers.trans inductionHypothesis
  | outside run kept inductionHypothesis => exact inductionHypothesis

theorem keeps_raised (raised : ∀ task ∈ tasks, ∀ action ∈ task, action.KeepsRaised cancelled)
    {concurrency : Nat} {s : σ} (run : Run cancelled (Batch.start concurrency tasks s) schedule log middle)
    (rest : Run cancelled middle later further b) (up : cancelled middle.shared = true) :
    cancelled b.shared = true := by
  induction rest with
  | start => exact up
  | step rest stepped inductionHypothesis =>
    obtain ⟨stages, consistent⟩ := (run.trans rest).consistent
    exact (step_eq_some stepped).keeps_raised raised consistent inductionHypothesis
  | outside rest kept inductionHypothesis => exact kept inductionHypothesis

/-- A worker leaves the loop only once the batch is stopped. -/
theorem stopped (raised : ∀ task ∈ tasks, ∀ action ∈ task, action.KeepsRaised cancelled)
    {concurrency : Nat} {s : σ} (run : Run cancelled (Batch.start concurrency tasks s) schedule log b)
    {worker : Nat} (inside : worker < b.workers.size) (out : b.place worker = .retired) : b.Stopped cancelled := by
  induction run with
  | start =>
    simp only [Batch.start, Array.size_replicate] at inside
    simp [place, Batch.start, Array.getD_eq_getD_getElem?, inside] at out
  | @step schedule log b next mover run stepped inductionHypothesis =>
    obtain ⟨stages, consistent⟩ := run.consistent
    have step := step_eq_some stepped
    obtain ⟨there, place, reason⟩ := step.moved
    rw [place, Function.update_apply] at out
    split at out
    · exact reason out
    · exact step.stopped (step.keeps_raised raised consistent) (inductionHypothesis (step.size_workers ▸ inside) out)
  | outside run kept inductionHypothesis => exact (inductionHypothesis inside out).imp_right (.imp_left kept)

/-- What the result says once all workers are out of the loop. -/
theorem outcome (raised : ∀ task ∈ tasks, ∀ action ∈ task, action.KeepsRaised cancelled) {concurrency : Nat}
    (positive : 0 < concurrency) {s : σ}
    (run : Run cancelled (Batch.start concurrency tasks s) schedule log b) (through : b.Over) :
    Outcome cancelled tasks (Batch.start concurrency tasks s) log b := by
  obtain ⟨stages, consistent⟩ := run.consistent
  have crew : b.workers.size = min concurrency tasks.length := by
    rw [run.size_workers]
    exact Array.size_replicate
  have failed := consistent.firstError_isSome_iff through
  refine ⟨⟨fun finished => ?_, fun ⟨executed, never⟩ => ?_⟩, ?_, fun error failed => ?_, fun calm => ?_⟩
  · obtain ⟨none, ending⟩ := result_eq_ok_iff.mp finished
    have calm : cancelled b.shared = false := by
      cases up : cancelled b.shared with
      | false => rfl
      | true => simp [completion, up] at ending
    refine ⟨fun task inside => consistent.executed through none ?_ inside, ?_⟩
    · have stopped := run.stopped raised (by omega) (through 0)
      simpa [Stopped, consistent.failed_eq_false through none, calm, consistent.size] using stopped
    · intro before log middle after further reached rest
      cases up : cancelled middle.shared with
      | false => rfl
      | true => exact absurd (reached.keeps_raised raised rest up) (by simp [calm])
  · have calm := never _ _ _ _ _ run .start
    refine result_eq_ok_iff.mpr ⟨?_, by simp [completion, calm]⟩
    by_contra some
    obtain ⟨error, seen, failure⟩ := failed.mp (Option.isSome_iff_ne_none.mpr some)
    obtain ⟨acted, -, own⟩ := executed error.task (consistent.known _ failure)
    have member : Entry.failed error seen ∈ logOf error.task log := mem_logOf.mpr ⟨failure, rfl⟩
    simp [own, begins] at member
  · rw [← failed, Option.isSome_iff_exists]
    exact exists_congr fun error => result_eq_error_iff
  · exact consistent.failed_of_entry (.inr (consistent.recorded_mem (result_eq_error_iff.mp failed)))
  · have none : b.firstError = none := by
      by_contra some
      obtain ⟨error, seen, failure⟩ := failed.mp (Option.isSome_iff_ne_none.mpr some)
      exact calm error seen failure
    rw [result_eq_ok_iff]
    cases up : cancelled b.shared <;> simp [none, completion]

end Run

/-- Whatever the schedule, no task begins twice, no more tasks are in flight than there are workers, and the
workers come to the end of the loop unless they wait in their tasks. Once they are all out of it, the result
says what has become of the tasks. -/
theorem any_schedule (c : Concurrency) {tasks : List (Task σ)}
    (raised : ∀ task ∈ tasks, ∀ action ∈ task, action.KeepsRaised cancelled) (s : σ) {schedule : List Nat}
    {log : List Entry} {b : Batch σ} (run : Run cancelled (start c.workers tasks s) schedule log b) :
    (∀ task, log.count (.begun task) ≤ 1) ∧
      (inFlight tasks.length log).card ≤ min c.workers tasks.length ∧
      schedule.length ≤ enoughSteps c.workers tasks ∧
      (∀ worker, b.place worker = .retired ∨ b.Waits cancelled worker ∨
        ∃ next, b.step cancelled worker = some next) ∧
      (b.Over → Outcome cancelled tasks (start c.workers tasks s) log b) := by
  obtain ⟨stages, consistent⟩ := run.consistent
  have crew : b.workers.size = min c.workers tasks.length := by
    rw [run.size_workers]
    exact Array.size_replicate
  exact ⟨consistent.count_begun_le, crew ▸ consistent.card_inFlight_le, run.length_le,
    b.place_retired_or cancelled, run.outcome raised c.positive⟩

/-- Three tasks on a shared flag: one fails, one raises the flag, and the third comes too late. -/
def trio : List (Task Bool) :=
  [[.ofFun fun _ up => (some (.reported "lost"), up)], [.ofFun fun _ _ => (none, true)],
    [.ofFun fun _ up => (none, up)]]

/-- Two workers in turn: the flag is raised between the failure and its signal. -/
theorem any_schedule_trio : (∀ task ∈ trio, ∀ action ∈ task, action.KeepsRaised id) ∧
    ∃ log b, Run id (start 2 trio false) [0, 0, 1, 1, 0, 1, 0, 1, 0, 1, 0, 1, 0] log b ∧ b.Over ∧
      b.result id = .error ⟨0, .reported "lost"⟩ ∧ log.count (.begun 2) = 0 ∧
      (inFlight 3 log).card ≤ 2 ∧ Outcome id trio (start 2 trio false) log b := by
  have raised : ∀ task ∈ trio, ∀ action ∈ task, action.KeepsRaised id := by
    simp [trio, Action.KeepsRaised, Action.ofFun]
  obtain ⟨log, b, followed, out, result, untouched⟩ :
      ∃ log b, (start 2 trio false).follow id [0, 0, 1, 1, 0, 1, 0, 1, 0, 1, 0, 1, 0] = some (log, b) ∧
        (∀ worker < b.workers.size, b.isLive worker = false) ∧
        b.result id = .error ⟨0, .reported "lost"⟩ ∧ log.count (.begun 2) = 0 :=
    ⟨_, _, rfl, by decide, rfl, by decide⟩
  have run := run_of_follow followed
  have through := over_iff.mpr out
  obtain ⟨-, few, -, -, outcome⟩ := any_schedule ⟨2, by decide, by decide⟩ raised false run
  exact ⟨raised, log, b, run, through, result, untouched, few, outcome through⟩

end BulkSync.Batch
