import BulkSync.Message.Reduced
import BulkSync.Proofs.BitSet
import BulkSync.Proofs.Fault
import BulkSync.Proofs.Graph.Grouping

/-! # Sides of reduced delivery

A side holds letters (messages with their targets) if the value of each node is the fold of the
messages to it, from the identity and in the order of sending, and its flag says whether there are any.
Sending adds a letter to the side for sending and leaves the other one alone; delivery starts that side
anew with nothing left of what it held. -/

namespace BulkSync

open Rows (itemsOf itemsOf_append itemsOf_singleton)

theorem Reducer.foldFrom_append {M : Type} (r : Reducer M) (start : M) (first second : List M) :
    r.foldFrom start (first ++ second) = r.foldFrom start first >>= (r.foldFrom · second) :=
  List.foldlM_append

namespace MailSide

variable {M : Type} [Element M]

/-- A side of so many nodes whose values and flags are those of some letters. -/
structure Holds (reducer : Reducer M) (nodes : Nat) (letters : List (Nat × M)) (side : MailSide M) :
    Prop where
  values : Cells.Regular nodes side.values
  flags : BitSet.Regular nodes side.flags
  inside : ∀ letter ∈ letters, letter.1 < nodes
  flag : ∀ node < nodes, side.flags.test node = !(itemsOf letters node).isEmpty
  value : ∀ node < nodes, (reducer.foldFrom reducer.identity (itemsOf letters node)).map
    Element.toWord = .ok (side.values.peekWord node)

theorem holds_blank (reducer : Reducer M) (nodes : Nat) :
    Holds reducer nodes [] (ReducedMail.blank nodes reducer) where
  values := (Cells.regular_new nodes).fill reducer.identity
  flags := BitSet.regular_new nodes
  inside _ member := nomatch member
  flag _ bound := BitSet.test_new bound
  value node bound := by
    rw [ReducedMail.blank, Cells.filled, (Cells.regular_new nodes).peekWord_fill reducer.identity bound]
    rfl

theorem Holds.peek {reducer : Reducer M} {nodes : Nat} {letters : List (Nat × M)} {side : MailSide M}
    (holds : Holds reducer nodes letters side) {node : Nat} (bound : node < nodes) :
    reducer.foldFrom reducer.identity (itemsOf letters node) = .ok (side.values.peek node) := by
  have value := holds.value node bound
  cases folded : reducer.foldFrom reducer.identity (itemsOf letters node) with
  | error fault => simp [folded, Except.map] at value
  | ok result =>
    simp only [folded, Except.map, Except.ok.injEq] at value
    rw [Cells.peek, ← value, Element.ofWord_toWord]

/-- Sides on which every node has been sent as good as the same are equal. -/
theorem Holds.ext {reducer : Reducer M} {nodes : Nat} {letters others : List (Nat × M)}
    {side other : MailSide M} (holds : Holds reducer nodes letters side)
    (holdsToo : Holds reducer nodes others other)
    (same : ∀ node < nodes, (itemsOf letters node).isEmpty = (itemsOf others node).isEmpty ∧
      reducer.foldFrom reducer.identity (itemsOf letters node) =
        reducer.foldFrom reducer.identity (itemsOf others node)) : side = other := by
  have values : side.values = other.values := holds.values.ext holdsToo.values fun node bound => by
    have value := holds.value node bound
    rw [(same node bound).2, holdsToo.value node bound] at value
    exact (Except.ok.inj value).symm
  have flags : side.flags = other.flags := holds.flags.ext holdsToo.flags fun node bound => by
    rw [holds.flag node bound, holdsToo.flag node bound, (same node bound).1]
  cases side
  cases other
  simp_all

theorem Holds.renewed {reducer : Reducer M} {nodes : Nat} {letters : List (Nat × M)} {side : MailSide M}
    (holds : Holds reducer nodes letters side) :
    (⟨side.values.fill reducer.identity, side.flags.clear⟩ : MailSide M) =
      ReducedMail.blank nodes reducer := by
  rw [holds.flags.clear_eq_new, holds.values.fill_eq_fill (Cells.regular_new nodes)]
  rfl

end MailSide

namespace ReducedMail

variable {M : Type} [Element M] {reducer : Reducer M} {nodes : Nat} {letters : List (Nat × M)}
  {r sent : ReducedMail M}

/-- What a message that is folded does: its target is a node, the fold goes on from the value so far,
and the flag of the target is set. -/
theorem send_ok (holds : r.sending.Holds reducer nodes letters) {target : Nat} {message : M}
    (ran : r.send target message = .ok sent) :
    ∃ next, target < nodes ∧ r.reducer.reduce (r.sending.values.peek target) message = .ok next ∧
      sent = { r with sending := ⟨r.sending.values.poke target next,
        if r.sending.flags.test target then r.sending.flags else r.sending.flags.put target⟩ } := by
  obtain ⟨current, read, reduced⟩ := bind_eq_ok_iff.mp ran
  obtain ⟨next, reduces, flagged⟩ := bind_eq_ok_iff.mp reduced
  obtain ⟨flags, inserted, done⟩ := bind_eq_ok_iff.mp flagged
  rcases Nat.lt_or_ge target nodes with inside | behind
  · rw [holds.values.read inside] at read
    cases read
    rw [holds.flags.insert inside] at inserted
    cases inserted
    cases done
    exact ⟨next, inside, reduces, rfl⟩
  · rw [holds.values.read_behind behind] at read
    cases read

/-- A message to a node is folded if the reducer does not fail on the value so far. -/
theorem send_succeeds (holds : r.sending.Holds reducer nodes letters) {target : Nat} {message next : M}
    (inside : target < nodes) (reduces : r.reducer.reduce (r.sending.values.peek target) message = .ok next) :
    ∃ sent, r.send target message = .ok sent := by
  rw [ReducedMail.send, holds.values.read inside, holds.flags.insert inside]
  simp only [mapError_ok]
  exact ⟨_, bind_eq_ok_iff.mpr ⟨_, rfl, bind_eq_ok_iff.mpr ⟨next, reduces, rfl⟩⟩⟩

theorem Holds.send (same : r.reducer = reducer) (holds : r.sending.Holds reducer nodes letters)
    {target : Nat} {message : M} (ran : r.send target message = .ok sent) :
    sent.sending.Holds reducer nodes (letters ++ [(target, message)]) ∧
      sent.receiving = r.receiving ∧ sent.reducer = reducer := by
  obtain ⟨next, bound, reduces, rfl⟩ := send_ok holds ran
  refine ⟨?_, rfl, same⟩
  constructor
  case values => exact holds.values.pokeWord bound _
  case flags =>
    dsimp only
    split
    · exact holds.flags
    · exact holds.flags.put bound
  case inside =>
    intro letter member
    rcases List.mem_append.mp member with old | new
    · exact holds.inside letter old
    · rw [List.mem_singleton.mp new]
      exact bound
  case flag =>
    intro node inside
    have before := holds.flag node inside
    rw [itemsOf_append, itemsOf_singleton]
    by_cases here : target = node
    · subst here
      simp only [if_true]
      split
      · next set => simp [set]
      · rw [holds.flags.test_put bound]
        simp
    · simp only [if_neg here, List.append_nil]
      split
      · exact before
      · rw [holds.flags.test_put bound, before]
        simp [Ne.symm here]
  case value =>
    intro node inside
    rw [itemsOf_append, itemsOf_singleton, Reducer.foldFrom_append]
    -- the fold of the target goes on by one message, all others are as before
    by_cases here : target = node
    · subst here
      simp only [if_true]
      rw [holds.peek bound, Cells.poke, holds.values.peekWord_pokeWord bound, ← same]
      change Except.map Element.toWord (r.reducer.reduce _ message >>= pure) = _
      rw [reduces]
      rfl
    · simp only [if_neg here]
      rw [Cells.poke, Cells.peekWord_pokeWord_ne _ _ here, ← holds.value node inside]
      cases reducer.foldFrom reducer.identity (itemsOf letters node) <;> rfl

end ReducedMail
end BulkSync
