import BulkSync.StopFlags
import BulkSync.Task.Action
import BulkSync.Task.Pool

/-!
# Batches of tasks

The workers of a batch share a counter from which they claim tasks, a signal that some task has
failed, and a record that takes the first failure handed to it. A worker goes through its loop in
small steps: look at the signals, claim a number, take the task, run its actions, and after a failure
raise the signal and then hand in the failure. `Batch.step` is one step of one worker; a run of a
batch is a sequence of steps of any workers in any order.

`Batch.drive` chooses the steps for a pool of threads: as many workers as there are threads are on
their way, the first ones that have not retired, and of those the first that can act does.
`Batch.driveBy` leaves it to a schedule which worker acts.
-/

namespace BulkSync

/-- Where a worker is in its loop. -/
inductive Worker (σ : Type) where
  /-- About to look at the signals. -/
  | looking
  /-- About to claim a number. -/
  | claiming
  /-- About to take the task with the number it has claimed. -/
  | taking (index : Nat)
  /-- Running a task, with these actions still to do. -/
  | running (index : Nat) (rest : Task σ)
  /-- About to raise the signal that a task has failed. -/
  | signalling (index : Nat) (cause : Failure)
  /-- About to hand in the failure of a task. -/
  | recording (index : Nat) (cause : Failure)
  /-- Out of the loop. -/
  | retired

/-- A batch on its way. -/
structure Batch (σ : Type) where
  /-- The tasks, each until it is taken. -/
  slots : Array (Option (Task σ))
  /-- The next number to claim. -/
  next : Nat
  failed : Bool
  firstError : Option TaskError
  workers : Array (Worker σ)
  shared : σ

namespace Batch

variable {σ : Type}

/-- A batch before its first step: a worker per unit of concurrency, but no more than tasks. -/
def start (concurrency : Nat) (tasks : List (Task σ)) (shared : σ) : Batch σ where
  slots := (tasks.map some).toArray
  next := 0
  failed := false
  firstError := none
  workers := Array.replicate (min concurrency tasks.length) .looking
  shared := shared

/-- What tasks and workers see of a batch. -/
def signals (cancelled : σ → Bool) (b : Batch σ) : Signals :=
  ⟨b.failed, b.firstError.isSome, cancelled b.shared⟩

/-- The batch with a worker at another place. -/
def move (b : Batch σ) (worker : Nat) (place : Worker σ) : Batch σ :=
  { b with workers := b.workers.setIfInBounds worker place }

/-- One step of a worker; none if it has retired or its task has to wait. -/
def step (cancelled : σ → Bool) (worker : Nat) (b : Batch σ) : Option (Batch σ) :=
  match b.workers.getD worker .retired with
  | .looking =>
      some (b.move worker (if (b.signals cancelled).shouldStop then .retired else .claiming))
  | .claiming =>
      let index := b.next
      let b := { b with next := index + 1 }
      some (b.move worker (if index < b.slots.size then .taking index else .retired))
  | .taking index =>
      match b.slots.getD index none with
      -- every number is claimed once, so an empty slot is never met
      | none => some (b.move worker .looking)
      | some task =>
          some ({ b with slots := b.slots.setIfInBounds index none }.move worker (.running index task))
  | .running _ [] => some (b.move worker .looking)
  | .running index (action :: rest) =>
      let seen := b.signals cancelled
      if action.ready seen b.shared then
        match action.run seen b.shared with
        | (none, shared) => some ({ b with shared := shared }.move worker (.running index rest))
        | (some cause, shared) =>
            some ({ b with shared := shared }.move worker (.signalling index cause))
      else none
  | .signalling index cause => some ({ b with failed := true }.move worker (.recording index cause))
  | .recording index cause =>
      -- the record is taken once: a failure that is handed in later is dropped
      some ({ b with firstError := b.firstError.or (some ⟨index, cause⟩) }.move worker .looking)
  | .retired => none

/-- Whether a worker can take a step. -/
def canStep (cancelled : σ → Bool) (b : Batch σ) (worker : Nat) : Bool :=
  match b.workers.getD worker .retired with
  | .running _ (action :: _) => action.ready (b.signals cancelled) b.shared
  | .retired => false
  | _ => true

/-- How a batch has ended. -/
def result (cancelled : σ → Bool) (b : Batch σ) : Except TaskError Completion :=
  match b.firstError with
  | some error => .error error
  | none => .ok (completion (cancelled b.shared))

/-! ## A pool of threads -/

/-- Whether a worker has not retired. -/
def isLive (b : Batch σ) (worker : Nat) : Bool :=
  match b.workers.getD worker .retired with
  | .retired => false
  | _ => true

/-- The worker that acts next on a pool of `threads` threads. -/
def pick (cancelled : σ → Bool) (threads : Nat) (b : Batch σ) : Option Nat :=
  (((List.range b.workers.size).filter b.isLive).take threads).find? (b.canStep cancelled)

/-- Steps until no worker on the pool can act, at most `fuel` of them. -/
def drive (cancelled : σ → Bool) (threads : Nat) : Nat → Batch σ → Batch σ
  | 0, b => b
  | fuel + 1, b =>
      match b.pick cancelled threads with
      | none => b
      | some worker =>
          match b.step cancelled worker with
          | none => b
          | some b => drive cancelled threads fuel b

/-- Steps of workers that are chosen among those that can act, at most `fuel` of them. -/
def driveBy (cancelled : σ → Bool) (choose : Nat → Nat) : Nat → Batch σ → Batch σ
  | 0, b => b
  | fuel + 1, b =>
      let able := (List.range b.workers.size).filter (b.canStep cancelled)
      match b.step cancelled (able.getD (choose fuel % able.length) b.workers.size) with
      | none => b
      | some b => driveBy cancelled choose fuel b

/-- As many steps as a batch can take: at most six around the actions of each task, and two in which
a worker retires. -/
def enoughSteps (concurrency : Nat) (tasks : List (Task σ)) : Nat :=
  tasks.flatten.length + 6 * tasks.length + 2 * min concurrency tasks.length

end Batch

/-- Runs batches on a pool. -/
def runOnPool {σ : Type} (pool : Pool) (concurrency : Nat) (cancelled : σ → Bool) : Executor σ :=
  fun tasks shared =>
    let b := (Batch.start concurrency tasks shared).drive cancelled pool.threads
      (Batch.enoughSteps concurrency tasks)
    (b.result cancelled, b.shared)

/-- The outline of a runner of batches. -/
def describeRunner (pool : Pool) (concurrency : Concurrency) (raised : Bool) : String :=
  "TaskRunner \x7b pool: " ++ pool.describe ++ ", concurrency: " ++ concurrency.describe ++
    ", termination: " ++ StopFlags.describe raised ++ " \x7d"

end BulkSync
