import BulkSync.Engine.Superstep
import BulkSync.Task.Batch

/-!
# Runs

An engine is made for a graph, a computation and a valid configuration, and runs once: superstep by
superstep until the computation converges, the supersteps that are allowed are done, the stop flag is
raised, or something fails. The result holds the properties that the computation exposes.
-/

namespace BulkSync

/-- How a sequence of supersteps ends. -/
inductive Ending where
  | reached (outcome : Outcome)
  | failed (error : TaskError)
  | struck (fault : Fault)
  deriving DecidableEq

/-- The state of an engine whose supersteps end that way, with so many of them completed. -/
def Ending.state (completed : Nat) : Ending → Lifecycle
  | .reached outcome => .ended outcome
  | .failed _ => .failed
  | .struck _ => .running completed

/-- A sequence of supersteps that has ended. -/
structure Course (M : Type) where
  ending : Ending
  /-- How many supersteps were completed. -/
  completed : Nat
  board : Board M

/-- The result of a run. -/
structure RunResult where
  values : PropertyStore
  supersteps : Nat
  outcome : Outcome

/-- Whether the run converged. -/
def RunResult.converged (r : RunResult) : Bool := r.outcome == .converged

namespace Job

variable {γ M : Type} [GraphView γ] [Element M]

/-- Supersteps from a number on, at most so many more. The stop flag is looked at in front of each. -/
def proceed (job : Job γ M) : Nat → Nat → Board M → Course M
  | 0, number, b => ⟨.reached .maxIterations, number, b⟩
  | remaining + 1, number, b =>
      if b.raised then ⟨.reached .cancelled, number, b⟩
      else
        match job.superstep number b with
        | (.proceed, b) => job.proceed remaining (number + 1) b
        | (.settled, b) => ⟨.reached .converged, number + 1, b⟩
        | (.cancelled, b) => ⟨.reached .cancelled, number, b⟩
        | (.failed error, b) => ⟨.failed error, number, b⟩
        | (.struck fault, b) => ⟨.struck fault, number, b⟩

end Job

/-- An engine for a computation on a graph. -/
structure Engine (γ M : Type) where
  graph : γ
  computation : Computation M
  config : Config
  /-- The threads that tasks are run on. -/
  pool : Pool := .single
  /-- Whether the stop flag is raised. -/
  raised : Bool := false
  progress : Option ProgressMeter := none
  state : Lifecycle := .notStarted
  /-- What has happened so far. -/
  record : Array (Event M) := #[]

namespace Engine

variable {γ M : Type} [GraphView γ] [Element M]

/-- An engine, if the configuration is valid. -/
def new (graph : γ) (computation : Computation M) (config : Config) :
    Except ConfigError (Engine γ M) := do
  config.validate
  return { graph := graph, computation := computation, config := config }

/-- The runs of nodes that the tasks work on. -/
def spans (e : Engine γ M) : Except Fault (List Span) := do
  let workers := e.config.concurrency.workers
  let least := some e.config.minBatchSize.toNat
  let byDegree := match e.config.partitioning with
    | .range => false
    | .degree => true
    | .auto => decide (0 < GraphView.edgeCount e.graph)
  if byDegree then
    return (← Partition.byDegrees e.graph workers least).map (·.span)
  else Partition.byCount workers (GraphView.nodeCount e.graph) least

/-- Makes the board and the job of a run. Declaring the properties comes first. -/
def prepare (e : Engine γ M) (executor : Nat → Executor (Board M)) :
    Except Fault (Job γ M × Board M) := do
  let nodes := GraphView.nodeCount e.graph
  let schema ← e.computation.schema
  let mail ← Mail.new nodes e.computation.reducer
  let spans ← e.spans
  let board : Board M :=
    { store := PropertyStore.new schema nodes
      votes := BitSet.new nodes
      mail := mail
      anySent := false
      raised := e.raised
      progress := e.progress
      record := e.record }
  return (⟨e.graph, e.computation, spans, executor⟩, board)

/-- The engine as a course leaves it. -/
def after (e : Engine γ M) (course : Course M) : Engine γ M :=
  { e with
    state := course.ending.state course.completed
    raised := course.board.raised
    progress := course.board.progress
    record := course.board.record }

/-- What a course comes to. -/
def resultOf (course : Course M) : Except RunError RunResult :=
  match course.ending with
  | .reached outcome =>
      match course.board.store.exposed with
      | .ok values => .ok ⟨values, course.completed, outcome⟩
      | .error fault => .error (.struck fault)
  | .failed error => .error (.task error)
  | .struck fault => .error (.struck fault)

/-- Runs the engine, with the tasks of each superstep executed in a way of its own. -/
def runWith (e : Engine γ M) (executor : Nat → Executor (Board M)) :
    Except RunError RunResult × Engine γ M :=
  if e.state ≠ .notStarted then (.error (.alreadyRan e.state), e)
  else
    match e.prepare executor with
    | .error fault => (.error (.struck fault), e)
    | .ok (job, board) =>
        let course := job.proceed e.config.maxIterations.toNat 0 board
        (resultOf course, e.after course)

/-- How the tasks of a superstep are executed on the pool of the engine. -/
def onPool (e : Engine γ M) : Nat → Executor (Board M) := fun _ =>
  runOnPool e.pool e.config.concurrency.workers Board.raised

/-- Runs the engine on its pool. -/
def run (e : Engine γ M) : Except RunError RunResult × Engine γ M := e.runWith e.onPool

end Engine
end BulkSync
