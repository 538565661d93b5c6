import BulkSync.Task.Action

/-!
# The life of an engine

An engine runs once. A run that comes to its end has an outcome; a run in which a task fails, or that
a fault strikes, has an error instead.
-/

namespace BulkSync

/-- How a run comes to its end. -/
inductive Outcome where
  /-- Nothing is left to do, or the computation asked to stop. -/
  | converged
  /-- All supersteps that were allowed are done. -/
  | maxIterations
  /-- The stop flag is raised. -/
  | cancelled
  deriving DecidableEq, Repr

/-- The word for an outcome in texts. -/
def Outcome.name : Outcome → String
  | .converged => "Converged"
  | .maxIterations => "MaxIterationsReached"
  | .cancelled => "Cancelled"

/-- Where an engine is in its life. -/
inductive Lifecycle where
  | notStarted
  /-- Within a superstep. -/
  | running (superstep : Nat)
  | ended (outcome : Outcome)
  /-- A task has failed. -/
  | failed
  deriving DecidableEq, Repr

/-- The outline of a place in the life of an engine. -/
def Lifecycle.describe : Lifecycle → String
  | .notStarted => "NotStarted"
  | .running superstep => s!"Running \x7b superstep: {superstep} \x7d"
  | .ended outcome => outcome.name
  | .failed => "Failed"

/-- Why a run has no result. -/
inductive RunError where
  /-- The engine has left its initial state already. -/
  | alreadyRan (state : Lifecycle)
  /-- A task failed. -/
  | task (error : TaskError)
  /-- A fault struck outside the tasks. -/
  | struck (fault : Fault)
  deriving DecidableEq

/-- The wording of a run error. -/
def RunError.message : RunError → String
  | .alreadyRan state => "computation already started (state: " ++ state.describe ++ ")"
  | .task error => error.message
  | .struck fault => fault.message

end BulkSync
