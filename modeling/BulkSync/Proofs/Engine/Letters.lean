import BulkSync.Proofs.Engine.Record
import Mathlib.Data.List.Basic

/-! # Letters between supersteps

What is sent in a superstep is what the record says: the letters of each deed are its events of sending
(`itemsOf_letters`). Whatever the order in which the tasks were executed, the same letters are on their
way (`Stepped.sent`), and without a reducer, or if the tasks were executed in sequence, they come
in the order of their senders (`Stepped.inOrder`). What a node receives in the next superstep follows. -/

namespace BulkSync

open Rows (itemsOf)

variable {γ M : Type} [GraphView γ] [Element M]

section Superstep

variable {job : Job γ M} {schema : Schema} {nodes superstep : Nat} {b after : Board M}

/-- The letters of a deed are its events of sending. -/
theorem itemsOf_letters {node : Nat} (acts : job.Acts schema superstep b node) (target : Nat) :
    itemsOf (job.deed schema superstep b node).letters target =
      messagesOf (job.deed schema superstep b node).events superstep node target := by
  rw [itemsOf, Deed.letters, List.filterMap_filterMap, messagesOf]
  apply List.filterMap_congr
  intro event member
  have own := Event.isOf_iff.mp (acts.isOf event member)
  cases event <;> simp_all [Event.letter?, Event.message?, Event.superstep, Event.node?]

end Superstep

namespace Engine.Account

variable {e after : Engine γ M} {executor : Nat → Executor (Board M)} {result : RunResult}
  {schema : Schema} {job : Job γ M} {board : Board M}
  (account : e.Account executor result after schema job board)
  (steps : job.Steps schema (GraphView.nodeCount e.graph) board result.supersteps)

include account steps

/-- What the record says was sent to a node is what the deeds of a superstep have sent to it. -/
theorem sentTo_record {s : Nat} (below : s < result.supersteps)
    (target : Nat) : sentTo (GraphView.nodeCount e.graph) after.record.toList s target =
      itemsOf (lettersOf (job.deed schema s (job.boardAt board s))
        (List.range (GraphView.nodeCount e.graph))) target := by
  obtain ⟨letters, stop, stepped⟩ := steps s below
  rw [sentTo, lettersOf, Rows.itemsOf_flatMap, List.flatMap_def, List.flatMap_def]
  congr 1
  apply List.map_congr_left
  intro source member
  have inside := List.mem_range.mp member
  rw [itemsOf_letters (stepped.acts source inside), ← account.eventsOf_record steps below inside,
    messagesOf_eventsOf]

end Engine.Account
end BulkSync
