import BulkSync.Engine.Run

/-!
# Tasks side by side

While a task visits the nodes of its run on one thread, other tasks visit theirs on other threads. A task is then
a strand of actions, one per node and a last one in which it hands in what it has sent, and other tasks act in
between. What it keeps to itself meanwhile lies in a drawer of its own; the office is the board with
the drawers of all tasks around it. `Engine.interleaved` executes the tasks of a run like that, on workers that
are scheduled in any way.
-/

namespace BulkSync

/-- What a task keeps to itself until it is done. -/
structure Drawer (M : Type) where
  outbox : Outbox M := #[]
  sent : Bool := false
  processed : Nat := 0

/-- The board of a run and the drawers of the tasks of a superstep, by slot. -/
structure Office (M : Type) where
  board : Board M
  drawers : Nat → Drawer M := fun _ => {}

namespace Office

variable {M : Type}

/-- Whether the stop flag is raised. -/
def raised (o : Office M) : Bool := o.board.raised

/-- What the task with a slot works on. -/
def desk (o : Office M) (slot : Nat) : Desk M :=
  ⟨o.board, (o.drawers slot).outbox, (o.drawers slot).sent, (o.drawers slot).processed⟩

/-- The office when the task with a slot has left a desk like that. -/
def leave (o : Office M) (slot : Nat) (d : Desk M) : Office M where
  board := d.board
  drawers other := if other = slot then ⟨d.outbox, d.sent, d.processed⟩ else o.drawers other

/-- What a task does at its desk as an action in the office. -/
def action (slot : Nat) (step : Signals → Attempt (Desk M) Unit) : Action (Office M) :=
  .ofFun fun seen o =>
    match (step seen).outcome (o.desk slot) with
    | (.ok (), d) => (none, o.leave slot d)
    | (.error fault, d) => (some (.struck fault), o.leave slot d)

end Office

namespace Job

variable {γ M : Type} [GraphView γ] [Element M]

/-- Visits a node unless the batch is to stop. A task that goes on to its next node after it was told to stop
is told so again: no signal is taken back within a batch. -/
def attend (job : Job γ M) (failed : Bool) (superstep node : Nat) : Attempt (Desk M) Unit := do
  let stopped ← Attempt.inspect fun d => .ok (failed || d.board.raised)
  if stopped then return
  job.visit superstep node

/-- The actions of the task with a slot. -/
def strand (job : Job γ M) (superstep slot : Nat) (span : Span) : Task (Office M) :=
  span.toList.map (fun node => Office.action slot fun seen => job.attend seen.failed superstep node) ++
    [Office.action slot fun _ => handIn slot]

/-- The tasks of a superstep, one per run of nodes, with an action per node. -/
def strands (job : Job γ M) (superstep : Nat) : List (Task (Office M)) :=
  job.spans.zipIdx.map fun (span, slot) => job.strand superstep slot span

end Job

/-- Executes the tasks of each superstep action by action on the workers of the configuration, for runs of nodes
that the engine has been cut into. In every step it is chosen which worker acts. -/
def Engine.interleaved {γ M : Type} [GraphView γ] [Element M] (e : Engine γ M) (spans : List Span)
    (choose : Nat → Nat → Nat) : Nat → Executor (Board M) := fun superstep _ b =>
  let tasks := Job.strands ⟨e.graph, e.computation, spans, e.onPool⟩ superstep
  let workers := e.config.concurrency.workers
  let batch := (Batch.start workers tasks { board := b }).driveBy Office.raised (choose superstep)
    (Batch.enoughSteps workers tasks)
  (batch.result Office.raised, batch.shared.board)

end BulkSync
