import BulkSync.Fault

/-!
# Tasks

A task is a finite sequence of actions on a shared state. Each action is atomic: other tasks may act
between two actions of a task, not during one. An action may have to wait until it is ready, and it
may fail, which ends its task.
-/

namespace BulkSync

/-- What a task can see of the batch it belongs to. -/
structure Signals where
  /-- Some task has failed. -/
  failed : Bool
  /-- The failure of some task has been recorded. -/
  recorded : Bool
  /-- The stop flag is raised. -/
  cancelled : Bool
  deriving DecidableEq

/-- Whether the batch is to stop. -/
def Signals.shouldStop (s : Signals) : Bool := s.failed || s.cancelled

/-- How a task fails: it reports an error, or a fault strikes it. -/
inductive Failure where
  | reported (text : String)
  | struck (fault : Fault)
  deriving DecidableEq

/-- The text of a failure. -/
def Failure.message : Failure → String
  | .reported text => text
  | .struck fault => fault.message

/-- The failure of a task of a batch. -/
structure TaskError where
  task : Nat
  cause : Failure
  deriving DecidableEq

/-- The wording of the failure of a task. -/
def TaskError.message (e : TaskError) : String :=
  match e.cause with
  | .reported text => s!"task {e.task} failed: {text}"
  | .struck fault => s!"task {e.task} panicked: " ++ fault.message

/-- How a batch ends if no task fails. -/
inductive Completion where
  | finished
  | cancelled
  deriving DecidableEq

/-- An atomic step of a task on a shared state. -/
structure Action (σ : Type) where
  ready : Signals → σ → Bool
  run : Signals → σ → Option Failure × σ

/-- The actions of a task, in order. -/
abbrev Task (σ : Type) : Type := List (Action σ)

/-- The action that is always ready. -/
def Action.ofFun {σ : Type} (run : Signals → σ → Option Failure × σ) : Action σ := ⟨fun _ _ => true, run⟩

/-- Runs the tasks of a batch, and says how that ended. -/
abbrev Executor (σ : Type) : Type := List (Task σ) → σ → Except TaskError Completion × σ

/-! ## One after another -/

/-- A batch without a failure is cancelled if the flag is raised in the end. -/
def completion (cancelled : Bool) : Completion := if cancelled then .cancelled else .finished

/-- Runs the actions of a task that no other task disturbs. -/
def Task.runAlone {σ : Type} (cancelled : σ → Bool) : Task σ → σ → Option Failure × σ
  | [], s => (none, s)
  | action :: rest, s =>
      match action.run ⟨false, false, cancelled s⟩ s with
      | (none, s) => Task.runAlone cancelled rest s
      | (some cause, s) => (some cause, s)

/-- Runs numbered tasks one after another, up to the first that fails or leaves the flag raised. -/
def runInOrder {σ : Type} (cancelled : σ → Bool) :
    List (Nat × Task σ) → σ → Except TaskError Completion × σ
  | [], s => (.ok (completion (cancelled s)), s)
  | (index, task) :: rest, s =>
      if cancelled s then (.ok .cancelled, s)
      else
        match Task.runAlone cancelled task s with
        | (none, s) => runInOrder cancelled rest s
        | (some cause, s) => (.error ⟨index, cause⟩, s)

/-- Runs the tasks of a batch one after another in the given order of their numbers. -/
def inOrder {σ : Type} (cancelled : σ → Bool) (order : List Nat) : Executor σ := fun tasks s =>
  runInOrder cancelled (order.map fun index => (index, tasks.getD index [])) s

end BulkSync
