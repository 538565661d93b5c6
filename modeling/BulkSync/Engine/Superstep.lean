import BulkSync.Engine.Config
import BulkSync.Engine.Handler
import BulkSync.Engine.Lifecycle
import BulkSync.Partition.Degrees

/-!
# Supersteps

In a superstep each task goes through the nodes of its run in ascending order. A node that has voted
to halt sleeps until it has a message; any other node computes. Then the mail is delivered, and the
computation has its say before the next superstep.

A task looks at the stop signals in front of each node. It reports the nodes it has looked at and
puts its outbox into its slot also when it was told to stop, but not when a fault strikes it.
-/

namespace BulkSync

/-- What a run is about: a graph, a computation, the runs of nodes that the tasks work on, and how the
tasks of each superstep are executed. -/
structure Job (γ M : Type) where
  graph : γ
  computation : Computation M
  spans : List Span
  executor : Nat → Executor (Board M)

/-- What follows from a superstep. -/
inductive Verdict where
  /-- There is more to do. -/
  | proceed
  /-- Nothing is left to do, or the computation asked to stop. -/
  | settled
  /-- The stop flag was raised within it. -/
  | cancelled
  /-- A task failed. -/
  | failed (error : TaskError)
  /-- A fault struck between the supersteps. -/
  | struck (fault : Fault)

namespace Job

variable {γ M : Type} [GraphView γ] [Element M]

/-! ## Nodes -/

/-- Sets up a node. -/
def setUp (job : Job γ M) (node : Nat) : Attempt (Desk M) Unit := do
  Attempt.change (Desk.onBoard (·.note (.setup node)))
  Desk.atBoard ((job.computation.setup ⟨node, GraphView.nodeCount job.graph⟩).run
    (Handler.setup job.graph node))

/-- Whether a node computes: it is awake, or a message wakes it up. -/
def wake (node : Nat) : Attempt (Desk M) Bool :=
  Attempt.of fun d =>
    if !d.board.votes.test node then (.ok true, d)
    else if d.board.mail.hasMessages node then
      (.ok true, d.onBoard fun b => { b with votes := b.votes.drop node })
    else (.ok false, d)

/-- Lets a node compute with the messages it has received. -/
def compute (job : Job γ M) (superstep node : Nat) : Attempt (Desk M) Unit := do
  let messages ← Attempt.inspect fun d => .ok (d.board.mail.messages node)
  Attempt.change (Desk.onBoard (·.note (.compute superstep node messages)))
  (job.computation.compute ⟨node, superstep, GraphView.nodeCount job.graph⟩ messages.toList).run
    (Handler.vertex job.graph superstep node)

/-- What a superstep does with one node. -/
def visit (job : Job γ M) (superstep node : Nat) : Attempt (Desk M) Unit := do
  Attempt.change fun d => { d with processed := d.processed + 1 }
  if superstep = 0 then job.setUp node
  if ← wake node then job.compute superstep node

/-! ## Tasks -/

/-- Visits nodes until the batch is to stop. -/
def visitAll (job : Job γ M) (failed : Bool) (superstep : Nat) : List Nat → Attempt (Desk M) Unit
  | [] => pure ()
  | node :: nodes => do
      let stopped ← Attempt.inspect fun d => .ok (failed || d.board.raised)
      if stopped then return
      job.visit superstep node
      job.visitAll failed superstep nodes

/-- The end of the task with a slot: it reports the nodes it has looked at, and hands in what it has sent. -/
def handIn (slot : Nat) : Attempt (Desk M) Unit := do
  let processed ← Attempt.inspect fun d => .ok d.processed
  Desk.atBoard (Board.logProgress processed)
  Attempt.change fun d => d.onBoard fun b =>
    { b with anySent := b.anySent || d.sent, mail := b.mail.deposit slot d.outbox }

/-- What the task with a slot does: it visits the nodes of its run, and hands in what it has sent. -/
def work (job : Job γ M) (failed : Bool) (superstep slot : Nat) (span : Span) :
    Attempt (Desk M) Unit := do
  job.visitAll failed superstep span.toList
  handIn slot

/-- The work of a task as one action: nothing but the board is left of the desk. -/
def action (job : Job γ M) (superstep slot : Nat) (span : Span) : Action (Board M) :=
  .ofFun fun seen board =>
    match (job.work seen.failed superstep slot span).outcome { board := board } with
    | (.ok (), desk) => (none, desk.board)
    | (.error fault, desk) => (some (.struck fault), desk.board)

/-- The tasks of a superstep, one per run of nodes. -/
def tasks (job : Job γ M) (superstep : Nat) : List (Task (Board M)) :=
  job.spans.zipIdx.map fun (span, slot) => [job.action superstep slot span]

/-! ## The superstep -/

/-- Asks the computation whether a superstep was the last one. -/
def consult (job : Job γ M) (superstep : Nat) : Attempt (Board M) Bool :=
  (job.computation.master ⟨superstep, GraphView.nodeCount job.graph, GraphView.edgeCount job.graph⟩).run
    (Handler.master job.graph)

/-- What is done behind the tasks: the mail is delivered, and the computation is asked whether this was
the last superstep. It is in any case if all nodes have voted to halt and nothing was sent. -/
def conclude (job : Job γ M) (superstep : Nat) (b : Board M) : Verdict × Board M :=
  match b.mail.swap with
  | .error fault => (.struck fault, b)
  | .ok mail =>
      let b := { b with mail := mail }.note (.master superstep b.store)
      -- neither can change any more: no task runs while the computation has its say
      let quiet := b.votes.isFull && !b.anySent
      match (job.consult superstep).outcome b with
      | (.ok stop, b) =>
          (if stop || quiet then .settled else .proceed, b.note (.answer superstep stop))
      | (.error fault, b) => (.struck fault, b)

/-- One superstep. -/
def superstep (job : Job γ M) (number : Nat) (b : Board M) : Verdict × Board M :=
  let b := { b with mail := b.mail.prepare job.spans.length, anySent := false }
  match job.executor number (job.tasks number) b with
  | (.error error, b) => (.failed error, b)
  | (.ok .cancelled, b) => (.cancelled, b)
  | (.ok .finished, b) => job.conclude number b

end Job
end BulkSync
