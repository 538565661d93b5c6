import BulkSync.Graph.Rows
import BulkSync.Message.Inbox

/-!
# Queued delivery

Every message is kept. A task collects the messages it sends in an outbox, and puts the outbox into
the slot with its number. At the end of a superstep the outboxes are sorted into rows, one per node:
slot by slot, and within a slot in the order of sending.
-/

namespace BulkSync

/-- Messages with the nodes they are sent to, in the order of sending. -/
abbrev Outbox (M : Type) : Type := Array (Nat × M)

/-- The messages of the superstep before, by node, and the outboxes of this one, by slot. -/
structure QueueMail (M : Type) where
  nodes : Nat
  outboxes : Array (Outbox M)
  inbox : Rows M

namespace QueueMail

variable {M : Type}

/-- Empty mailboxes for so many nodes. -/
def new [Inhabited M] (nodes : Nat) : QueueMail M := ⟨nodes, #[], Rows.empty nodes⟩

/-- Provides a slot for each task. -/
def prepare (q : QueueMail M) (tasks : Nat) : QueueMail M :=
  { q with
    outboxes := q.outboxes.extract 0 tasks ++ Array.replicate (tasks - q.outboxes.size) #[] }

/-- Puts an outbox into a slot. -/
def deposit (q : QueueMail M) (slot : Nat) (outbox : Outbox M) : QueueMail M :=
  { q with outboxes := q.outboxes.setIfInBounds slot outbox }

/-- All messages in the slots. -/
def pending (q : QueueMail M) : List (Nat × M) := q.outboxes.toList.flatMap (·.toList)

/-- Fails at a target that is no node: there is no offset in which its messages could be counted. -/
def checkTarget (q : QueueMail M) (target : Nat) : Except Fault Unit := do
  let index ← Word.add? target 1
  if index ≤ q.nodes then return () else throw (.access (.outOfBounds index (q.nodes + 1)))

/-- Delivers the messages in the slots, and empties the slots. Fails if a message is to something that
is no node. -/
def swap [Inhabited M] (q : QueueMail M) : Except Fault (QueueMail M) := do
  q.pending.forM fun (target, _) => q.checkTarget target
  return {
    nodes := q.nodes
    outboxes := q.outboxes.map fun _ => #[]
    inbox := Rows.group q.nodes q.pending }

/-- Whether a node has messages. -/
def hasMessages (q : QueueMail M) (node : Nat) : Bool :=
  let (start, stop) := q.inbox.bounds node
  decide (start < stop)

/-- The messages to a node. -/
def messages (q : QueueMail M) (node : Nat) : Messages M :=
  let (start, stop) := q.inbox.bounds node
  .packed q.inbox.values start stop

end QueueMail
end BulkSync
