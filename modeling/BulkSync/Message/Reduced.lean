import BulkSync.BitSet
import BulkSync.Message.Inbox
import BulkSync.Message.Reducer

/-!
# Reduced delivery

The messages to a node are folded into one value as they are sent. There are two sides, each with a
value and a flag per node: messages of this superstep are folded into one side, those of the
superstep before are read from the other. At the end of a superstep the sides change places, and the
side for sending starts anew.
-/

namespace BulkSync

/-- A value per node, and whether anything was folded into it. -/
structure MailSide (M : Type) where
  values : Cells M
  flags : BitSet

/-- The two sides of reduced delivery. -/
structure ReducedMail (M : Type) where
  reducer : Reducer M
  sending : MailSide M
  receiving : MailSide M

namespace ReducedMail

variable {M : Type} [Element M]

/-- A side to which nothing has been sent. -/
def blank (nodes : Nat) (reducer : Reducer M) : MailSide M :=
  ⟨Cells.filled nodes reducer.identity, BitSet.new nodes⟩

/-- Empty mailboxes for so many nodes. -/
def new (nodes : Nat) (reducer : Reducer M) : ReducedMail M :=
  ⟨reducer, blank nodes reducer, blank nodes reducer⟩

/-- Folds a message into the value of its target. -/
def send (r : ReducedMail M) (target : Nat) (message : M) : Except Fault (ReducedMail M) := do
  let current ← (r.sending.values.read target).mapError .access
  let next ← r.reducer.reduce current message
  let flags ← r.sending.flags.insert target
  return { r with sending := ⟨r.sending.values.poke target next, flags⟩ }

/-- Delivers what was sent, and starts the other side anew. -/
def swap (r : ReducedMail M) : ReducedMail M where
  reducer := r.reducer
  -- the side that was read is used again, with nothing left of what it held
  sending := ⟨r.receiving.values.fill r.reducer.identity, r.receiving.flags.clear⟩
  receiving := r.sending

/-- Whether a node has a message. -/
def hasMessages (r : ReducedMail M) (node : Nat) : Bool := r.receiving.flags.test node

/-- The message to a node, if it has one. -/
def messages (r : ReducedMail M) (node : Nat) : Messages M :=
  .reduced (if r.hasMessages node then some (r.receiving.values.peek node) else none)

end ReducedMail
end BulkSync
