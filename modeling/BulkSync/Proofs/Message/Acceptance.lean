import BulkSync.Proofs.Message.Mail

/-! # Messages that are accepted

A message to a node cannot fail to be folded if the reducer cannot fail, and queued messages to nodes
cannot fail to be delivered. -/

namespace BulkSync

variable {M : Type}

/-- A reducer that never fails. -/
def Reducer.Total (r : Reducer M) : Prop := ∀ current message, ∃ next, r.reduce current message = .ok next

namespace Mail

variable [Element M] {nodes tasks : Nat} {old : List (Nat × M)} {letters : Nat → List (Nat × M)}
  {order : List Nat} {reducer : Option (Reducer M)} {mail : Mail M}

/-- Mailboxes that a message to any node can be put into. -/
def Accepts (nodes : Nat) : Mail M → Prop
  | .queue _ => True
  | .reduced r => r.reducer.Total ∧ ∃ letters, r.sending.Holds r.reducer nodes letters

theorem Accepts.fold (accepts : mail.Accepts nodes) {target : Nat} (inside : target < nodes) (message : M) :
    ∃ folded, mail.fold target message = .ok folded ∧ folded.Accepts nodes := by
  cases mail with
  | queue q => exact ⟨.queue q, rfl, trivial⟩
  | reduced r =>
    obtain ⟨total, sent, holds⟩ := accepts
    obtain ⟨next, reduces⟩ := total (r.sending.values.peek target) message
    obtain ⟨after, ran⟩ := ReducedMail.send_succeeds holds inside reduces
    obtain ⟨holdsAfter, _, same⟩ := ReducedMail.Holds.send rfl holds ran
    refine ⟨.reduced after, ?_, same ▸ total, _, same ▸ holdsAfter⟩
    rw [Mail.fold, ran]
    rfl

theorem Accepts.deposit (accepts : mail.Accepts nodes) (slot : Nat) (outbox : Outbox M) :
    (mail.deposit slot outbox).Accepts nodes := by
  cases mail <;> exact accepts

theorem Carries.accepts (carries : Carries nodes tasks old letters order reducer mail)
    (total : ∀ r, reducer = some r → r.Total) : mail.Accepts nodes := by
  cases carries with
  | queue inside => trivial
  | reduced same holds sent => exact ⟨same ▸ total _ rfl, _, same ▸ sent⟩

/-- A target and the number behind it fit into a word. -/
theorem swap_queue_succeeds {q : QueueMail M} (inside : ∀ letter ∈ q.pending, letter.1 < q.nodes)
    (bounded : q.nodes < Word.limit) : ∃ delivered, (Mail.queue q).swap = .ok delivered := by
  have passes : ∀ letter ∈ q.pending, q.checkTarget letter.1 = .ok () := by
    intro letter member
    have within := inside letter member
    have fits : letter.1 + 1 < Word.limit := by omega
    rw [QueueMail.checkTarget, Word.add?, if_pos fits]
    exact if_pos within
  rw [Mail.swap, QueueMail.swap, forM_of_ok passes]
  exact ⟨_, rfl⟩

theorem Carries.swap_succeeds (carries : Carries nodes tasks old letters order reducer mail)
    (inside : ∀ slot < tasks, ∀ letter ∈ letters slot, letter.1 < nodes) (bounded : nodes < Word.limit) :
    ∃ delivered, mail.swap = .ok delivered := by
  cases carries with
  | queue held =>
    refine swap_queue_succeeds (fun letter member => ?_) bounded
    obtain ⟨outbox, filled, within⟩ := List.mem_flatMap.mp member
    obtain ⟨slot, rfl⟩ : ∃ slot : Fin tasks, (if slot.val ∈ order then (letters slot).toArray else #[]) =
        outbox := by
      simpa using filled
    split at within
    · exact inside slot slot.isLt letter (by simpa using within)
    · simp at within
  | reduced same holds sent => exact ⟨_, rfl⟩

end Mail
end BulkSync
