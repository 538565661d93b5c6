import BulkSync.Message.Mail
import BulkSync.ProgressMeter
import BulkSync.Property.Store

/-!
# The board of a run

All tasks of a run work on one board: the properties of the nodes, their votes to halt, the mailboxes,
the stop flag and the progress meter. The board also keeps a record of what has happened so far.

A task has the board on its desk, together with what it keeps to itself until it is done: its outbox,
whether it has sent anything, and how many nodes it has looked at.
-/

namespace BulkSync

/-- An entry of the record of a run. -/
inductive Event (M : Type) where
  /-- A node is set up. -/
  | setup (node : Nat)
  /-- A node computes with the messages it has received. -/
  | compute (superstep node : Nat) (messages : Messages M)
  /-- A message is sent. -/
  | send (superstep source target : Nat) (message : M)
  /-- A node votes to halt. -/
  | halt (superstep node : Nat)
  /-- A superstep is over; the nodes have these properties. -/
  | master (superstep : Nat) (store : PropertyStore)
  /-- The computation says whether that superstep was the last one. -/
  | answer (superstep : Nat) (stop : Bool)

/-- What the tasks of a run share. -/
structure Board (M : Type) where
  store : PropertyStore
  votes : BitSet
  mail : Mail M
  /-- Whether a task of this superstep has sent anything. -/
  anySent : Bool
  /-- Whether the stop flag is raised. -/
  raised : Bool
  progress : Option ProgressMeter
  record : Array (Event M)

namespace Board

variable {M : Type}

/-- The board with another entry in its record. -/
def note (b : Board M) (event : Event M) : Board M := { b with record := b.record.push event }

/-- The board with other properties. -/
def setStore (b : Board M) (store : PropertyStore) : Board M := { b with store := store }

/-- Reports units of work to the progress meter, if there is one. -/
def logProgress (amount : Nat) : Attempt (Board M) Unit :=
  Attempt.of fun b =>
    match b.progress with
    | none => (.ok (), b)
    | some meter =>
        let (result, meter) := (ProgressMeter.log amount).outcome meter
        (result, { b with progress := some meter })

end Board

/-- What a task works on. -/
structure Desk (M : Type) where
  board : Board M
  outbox : Outbox M := #[]
  sent : Bool := false
  processed : Nat := 0

namespace Desk

variable {M : Type}

/-- The desk with a change made to the board. -/
def onBoard (change : Board M → Board M) (d : Desk M) : Desk M := { d with board := change d.board }

/-- A step on the board of a desk. -/
def atBoard {α : Type} (step : Attempt (Board M) α) : Attempt (Desk M) α :=
  Attempt.within Desk.board (fun board d => { d with board := board }) step

/-- Puts a message on its way to a node and enters that into the record. -/
def post [Element M] (superstep source target : Nat) (message : M) : Attempt (Desk M) Unit :=
  Attempt.of fun d =>
    match d.board.mail.fold target message with
    | .error fault => (.error fault, d)
    | .ok mail =>
        let event := .send superstep source target message
        (.ok (), { d with
          board := { d.board with mail := mail, record := d.board.record.push event }
          outbox := mail.collect target message d.outbox })

/-- Sends a message to some nodes. The task counts as one that has sent something when the message is on its
way to all of them, and not before. -/
def send [Element M] (superstep source : Nat) (targets : List Nat) (message : M) :
    Attempt (Desk M) Unit := do
  targets.forM fun target => post superstep source target message
  Attempt.change fun d => { d with sent := d.sent || !targets.isEmpty }

end Desk
end BulkSync
