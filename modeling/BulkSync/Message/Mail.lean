import BulkSync.Message.Queue
import BulkSync.Message.Reduced

/-!
# Mailboxes

The two ways of delivery behind one interface. A message that is queued goes into the outbox of the
task that sends it; one that is reduced goes straight to its target's value.
-/

namespace BulkSync

/-- The mailboxes of all nodes. -/
inductive Mail (M : Type) where
  | queue (q : QueueMail M)
  | reduced (r : ReducedMail M)

namespace Mail

variable {M : Type} [Element M]

/-- Empty mailboxes: reduced if there is a reducer. Queues need one more offset than nodes. -/
def new (nodes : Nat) : Option (Reducer M) → Except Fault (Mail M)
  | some reducer => .ok (.reduced (.new nodes reducer))
  | none => do
      let _ ← Word.add? nodes 1
      return .queue (.new nodes)

/-- Provides a slot for each task. -/
def prepare (mail : Mail M) (tasks : Nat) : Mail M :=
  match mail with
  | .queue q => .queue (q.prepare tasks)
  | .reduced r => .reduced r

/-- Folds a message into the value of its target, if messages are reduced. -/
def fold (mail : Mail M) (target : Nat) (message : M) : Except Fault (Mail M) :=
  match mail with
  | .queue q => .ok (.queue q)
  | .reduced r => do return .reduced (← r.send target message)

/-- Puts a message into the outbox of the task that sends it, if messages are queued. -/
def collect (mail : Mail M) (target : Nat) (message : M) (outbox : Outbox M) : Outbox M :=
  match mail with
  | .queue _ => outbox.push (target, message)
  | .reduced _ => outbox

/-- Puts the outbox of a task into its slot. -/
def deposit (mail : Mail M) (slot : Nat) (outbox : Outbox M) : Mail M :=
  match mail with
  | .queue q => .queue (q.deposit slot outbox)
  | .reduced r => .reduced r

/-- Delivers what was sent. Reduced messages have found their targets already. -/
def swap : Mail M → Except Fault (Mail M)
  | .queue q => do return .queue (← q.swap)
  | .reduced r => .ok (.reduced r.swap)

/-- Whether a node has messages. -/
def hasMessages (mail : Mail M) (node : Nat) : Bool :=
  match mail with
  | .queue q => q.hasMessages node
  | .reduced r => r.hasMessages node

/-- The messages to a node. -/
def messages (mail : Mail M) (node : Nat) : Messages M :=
  match mail with
  | .queue q => q.messages node
  | .reduced r => r.messages node

end Mail
end BulkSync
