import BulkSync.Task.Batch

/-! # Batches under any schedule

A run of a batch is any sequence of steps of its workers (`Batch.Run`); between two steps others may change the
shared state, but no one lowers the stop flag. The log of a run says what was seen of the tasks. What a single
step can do is said once, with a case for each place in the loop of a worker (`Step`, `step_eq_some`), and
everything that is known of runs is derived from it. -/

namespace BulkSync

variable {σ : Type} {cancelled : σ → Bool}

/-- An action that leaves a raised flag raised. -/
def Action.KeepsRaised (cancelled : σ → Bool) (action : Action σ) : Prop :=
  ∀ seen s, cancelled s = true → cancelled (action.run seen s).2 = true

namespace Batch

/-- What shows of a task: that it begins, that one of its actions succeeds or fails and what was seen of the
batch then, that it ends, and that its failure is signalled and handed in. -/
inductive Entry where
  | begun (task : Nat)
  | acted (task : Nat) (seen : Signals)
  | ended (task : Nat)
  | failed (error : TaskError) (seen : Signals)
  | signalled (error : TaskError)
  | recorded (error : TaskError)
  deriving DecidableEq

/-- The task that an entry is about. -/
def Entry.task : Entry → Nat
  | .begun task | .acted task _ | .ended task => task
  | .failed error _ | .signalled error | .recorded error => error.task

/-- An entry after which a task does nothing more. -/
def Entry.closes (task : Nat) : Entry → Bool
  | .ended number => number = task
  | .failed error _ => error.task = task
  | .begun _ | .acted .. | .signalled _ | .recorded _ => false

/-- The entries about a task. -/
def logOf (task : Nat) (log : List Entry) : List Entry := log.filter (·.task = task)

theorem mem_logOf {task : Nat} {entry : Entry} {log : List Entry} :
    entry ∈ logOf task log ↔ entry ∈ log ∧ entry.task = task := by
  simp [logOf]

theorem logOf_concat (entry : Entry) (log : List Entry) :
    logOf entry.task (log ++ [entry]) = logOf entry.task log ++ [entry] := by
  simp [logOf]

theorem logOf_concat_of_ne {task : Nat} {entry : Entry} (elsewhere : task ≠ entry.task) (log : List Entry) :
    logOf task (log ++ [entry]) = logOf task log := by
  simp [logOf, Ne.symm elsewhere]

/-- Where a worker is; out of the loop if there is no such worker. -/
def place (b : Batch σ) (worker : Nat) : Worker σ := b.workers.getD worker .retired

/-- What a step of a worker shows. -/
def entry (cancelled : σ → Bool) (b : Batch σ) (worker : Nat) : Option Entry :=
  match b.place worker with
  | .taking index => (b.slots.getD index none).map fun _ => .begun index
  | .running index [] => some (.ended index)
  | .running index (action :: _) =>
      let seen := b.signals cancelled
      match (action.run seen b.shared).1 with
      | none => some (.acted index seen)
      | some cause => some (.failed ⟨index, cause⟩ seen)
  | .signalling index cause => some (.signalled ⟨index, cause⟩)
  | .recording index cause => some (.recorded ⟨index, cause⟩)
  | .looking | .claiming | .retired => none

/-! ## One step -/

/-- What a worker can do, by its place in the loop. -/
inductive Step (cancelled : σ → Bool) (b : Batch σ) (worker : Nat) : Option Entry → Batch σ → Prop
  | look (place : b.place worker = .looking) : Step cancelled b worker none
      (b.move worker (if (b.signals cancelled).shouldStop then .retired else .claiming))
  | claim (place : b.place worker = .claiming) (left : b.next < b.slots.size) :
      Step cancelled b worker none ({ b with next := b.next + 1 }.move worker (.taking b.next))
  | leave (place : b.place worker = .claiming) (gone : b.slots.size ≤ b.next) :
      Step cancelled b worker none ({ b with next := b.next + 1 }.move worker .retired)
  | take {index : Nat} {task : Task σ} (place : b.place worker = .taking index)
      (slot : b.slots.getD index none = some task) : Step cancelled b worker (some (.begun index))
      ({ b with slots := b.slots.setIfInBounds index none }.move worker (.running index task))
  | miss {index : Nat} (place : b.place worker = .taking index)
      (slot : b.slots.getD index none = none) : Step cancelled b worker none (b.move worker .looking)
  | finish {index : Nat} (place : b.place worker = .running index []) :
      Step cancelled b worker (some (.ended index)) (b.move worker .looking)
  | act {index : Nat} {action : Action σ} {rest : Task σ} {shared : σ}
      (place : b.place worker = .running index (action :: rest))
      (ready : action.ready (b.signals cancelled) b.shared = true)
      (ran : action.run (b.signals cancelled) b.shared = (none, shared)) :
      Step cancelled b worker (some (.acted index (b.signals cancelled)))
        ({ b with shared := shared }.move worker (.running index rest))
  | fail {index : Nat} {action : Action σ} {rest : Task σ} {cause : Failure} {shared : σ}
      (place : b.place worker = .running index (action :: rest))
      (ready : action.ready (b.signals cancelled) b.shared = true)
      (ran : action.run (b.signals cancelled) b.shared = (some cause, shared)) :
      Step cancelled b worker (some (.failed ⟨index, cause⟩ (b.signals cancelled)))
        ({ b with shared := shared }.move worker (.signalling index cause))
  | signal {index : Nat} {cause : Failure} (place : b.place worker = .signalling index cause) :
      Step cancelled b worker (some (.signalled ⟨index, cause⟩))
        ({ b with failed := true }.move worker (.recording index cause))
  | record {index : Nat} {cause : Failure} (place : b.place worker = .recording index cause) :
      Step cancelled b worker (some (.recorded ⟨index, cause⟩))
        ({ b with firstError := b.firstError.or (some ⟨index, cause⟩) }.move worker .looking)

theorem step_eq_some {b next : Batch σ} {worker : Nat} (stepped : b.step cancelled worker = some next) :
    Step cancelled b worker (b.entry cancelled worker) next := by
  rw [step, ← place] at stepped
  rw [entry]
  cases placed : b.place worker with
  | looking =>
    rw [placed] at stepped
    cases stepped
    exact .look placed
  | claiming =>
    rw [placed] at stepped
    cases stepped
    by_cases left : b.next < b.slots.size
    · simpa only [if_pos left] using Step.claim placed left
    · simpa only [if_neg left] using Step.leave placed (Nat.not_lt.mp left)
  | taking index =>
    rw [placed] at stepped
    cases slot : b.slots.getD index none with
    | none =>
      simp only [slot] at stepped
      cases stepped
      simpa only [slot, Option.map_none] using Step.miss placed slot
    | some task =>
      simp only [slot] at stepped
      cases stepped
      simpa only [slot, Option.map_some] using Step.take placed slot
  | running index todo =>
    rw [placed] at stepped
    cases todo with
    | nil =>
      cases stepped
      exact .finish placed
    | cons action rest =>
      dsimp only at stepped ⊢
      split at stepped
      · next ready =>
        cases ran : action.run (b.signals cancelled) b.shared with
        | mk failure shared =>
          rw [ran] at stepped
          cases failure with
          | none =>
            cases stepped
            exact .act placed ready ran
          | some cause =>
            cases stepped
            exact .fail placed ready ran
      · cases stepped
  | signalling index cause =>
    rw [placed] at stepped
    cases stepped
    exact .signal placed
  | recording index cause =>
    rw [placed] at stepped
    cases stepped
    exact .record placed
  | retired =>
    rw [placed] at stepped
    cases stepped

/-- A worker that waits in its task for its next action to be ready. -/
def Waits (cancelled : σ → Bool) (b : Batch σ) (worker : Nat) : Prop :=
  ∃ index action rest, b.place worker = .running index (action :: rest) ∧
    action.ready (b.signals cancelled) b.shared = false

/-- A worker is out of the loop, waits in its task, or can take a step. -/
theorem place_retired_or (b : Batch σ) (cancelled : σ → Bool) (worker : Nat) : b.place worker = .retired ∨
    b.Waits cancelled worker ∨ ∃ next, b.step cancelled worker = some next := by
  cases stepped : b.step cancelled worker with
  | some next => exact .inr (.inr ⟨next, rfl⟩)
  | none =>
    rw [step, ← place] at stepped
    split at stepped
    all_goals try cases stepped
    · split at stepped <;> cases stepped
    · next index action rest placed =>
      dsimp only at stepped
      split at stepped
      · split at stepped <;> cases stepped
      · next waits => exact .inr (.inl ⟨index, action, rest, placed, by simpa using waits⟩)
    · next placed => exact .inl placed

/-! ## Runs -/

/-- The steps of workers by which a batch can come to another state, and the log of them. -/
inductive Run (cancelled : σ → Bool) (first : Batch σ) : List Nat → List Entry → Batch σ → Prop
  | start : Run cancelled first [] [] first
  | step {schedule : List Nat} {log : List Entry} {b next : Batch σ} {worker : Nat}
      (run : Run cancelled first schedule log b) (stepped : b.step cancelled worker = some next) :
      Run cancelled first (schedule ++ [worker]) (log ++ (b.entry cancelled worker).toList) next
  | outside {schedule : List Nat} {log : List Entry} {b : Batch σ} {shared : σ}
      (run : Run cancelled first schedule log b)
      (kept : cancelled b.shared = true → cancelled shared = true) :
      Run cancelled first schedule log { b with shared := shared }

/-- All workers are out of the loop. -/
def Over (b : Batch σ) : Prop := ∀ worker, b.place worker = .retired

theorem isLive_eq_false_iff {b : Batch σ} {worker : Nat} : b.isLive worker = false ↔ b.place worker = .retired := by
  rw [isLive, ← place]
  cases b.place worker <;> simp

theorem over_iff {b : Batch σ} : b.Over ↔ ∀ worker < b.workers.size, b.isLive worker = false := by
  refine ⟨fun through worker _ => isLive_eq_false_iff.mpr (through worker), fun retired worker => ?_⟩
  by_cases inside : worker < b.workers.size
  · exact isLive_eq_false_iff.mp (retired worker inside)
  · simp [place, Array.getD, inside]

instance (b : Batch σ) : Decidable b.Over := decidable_of_iff _ over_iff.symm

/-- The steps of the workers of a schedule, with the log of them; none if one of them cannot step. -/
def follow (cancelled : σ → Bool) : List Nat → Batch σ → Option (List Entry × Batch σ)
  | [], b => some ([], b)
  | worker :: schedule, b => do
      let next ← b.step cancelled worker
      let (log, last) ← follow cancelled schedule next
      return ((b.entry cancelled worker).toList ++ log, last)

theorem Run.trans {first middle last : Batch σ} {before after : List Nat} {log further : List Entry}
    (run : Run cancelled first before log middle) (rest : Run cancelled middle after further last) :
    Run cancelled first (before ++ after) (log ++ further) last := by
  induction rest with
  | start => simpa using run
  | step rest stepped inductionHypothesis => simpa using inductionHypothesis.step stepped
  | outside rest kept inductionHypothesis => exact inductionHypothesis.outside kept

theorem run_of_follow {first last : Batch σ} {schedule : List Nat} {log : List Entry}
    (followed : first.follow cancelled schedule = some (log, last)) :
    Run cancelled first schedule log last := by
  induction schedule generalizing first log with
  | nil =>
    cases followed
    exact .start
  | cons worker schedule inductionHypothesis =>
    rw [follow] at followed
    obtain ⟨next, stepped, followed⟩ := Option.bind_eq_some_iff.mp followed
    obtain ⟨⟨entries, final⟩, followed, done⟩ := Option.bind_eq_some_iff.mp followed
    cases done
    exact (Run.start.step stepped).trans (inductionHypothesis followed)

/-! ## On a pool -/

theorem isSome_step (b : Batch σ) (worker : Nat) : (b.step cancelled worker).isSome = b.canStep cancelled worker := by
  rw [step, canStep]
  cases b.workers.getD worker .retired with
  | taking index =>
    dsimp only
    cases b.slots.getD index none <;> rfl
  | running index todo =>
    cases todo with
    | nil => rfl
    | cons action rest =>
      dsimp only
      cases action.ready (b.signals cancelled) b.shared with
      | false => rfl
      | true => cases action.run (b.signals cancelled) b.shared with
        | mk failure shared => cases failure <;> rfl
  | _ => rfl

/-- The log of the steps that a pool takes. -/
def driveLog (cancelled : σ → Bool) (threads : Nat) : Nat → Batch σ → List Entry
  | 0, _ => []
  | fuel + 1, b =>
      match b.pick cancelled threads with
      | none => []
      | some worker =>
          match b.step cancelled worker with
          | none => []
          | some next => (b.entry cancelled worker).toList ++ driveLog cancelled threads fuel next

end Batch
end BulkSync
