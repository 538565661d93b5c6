import BulkSync.Proofs.BitSet
import BulkSync.Proofs.Lockstep
import Mathlib.Data.Nat.Count

/-! # Sets of bits refine finite sets

Whatever is asked of a set of bits, it answers as the finite set of its members does (`refines_finset`). A request
with a number at or beyond the bound is refused and changes nothing (`Request.onMembers`). Members are
counted word by word and without a mask, and that is their number because no bit is set at or beyond the
bound (`Regular.count_eq`). -/

namespace BulkSync.BitSet

open Finset (range)

/-- The numbers that test as members. -/
def members (s : BitSet) : Finset Nat := {bit ∈ range s.bits | s.test bit}

variable {bits bit : Nat} {s : BitSet}

@[simp] theorem mem_members : bit ∈ s.members ↔ bit < s.bits ∧ s.test bit = true := by simp [members]

theorem members_new (bits : Nat) : (new bits).members = ∅ := by
  ext bit
  simp only [mem_members, Finset.notMem_empty, iff_false, not_and, Bool.not_eq_true]
  exact test_new

namespace Regular

theorem members_subset (regular : Regular bits s) : s.members ⊆ range bits := by
  intro bit member
  simpa [regular.bits_eq] using (mem_members.mp member).1

theorem test_eq_decide (regular : Regular bits s) (inside : bit < bits) :
    s.test bit = decide (bit ∈ s.members) := by
  simp [regular.bits_eq, inside]

theorem members_put (regular : Regular bits s) (inside : bit < bits) :
    (s.put bit).members = Insert.insert bit s.members := by
  ext other
  have bound : (s.put bit).bits = s.bits := rfl
  simp only [mem_members, Finset.mem_insert, bound, regular.test_put inside, regular.bits_eq,
    Bool.or_eq_true, decide_eq_true_eq]
  constructor
  · rintro ⟨below, member | same⟩
    · exact .inr ⟨below, member⟩
    · exact .inl same
  · rintro (same | ⟨below, member⟩)
    · exact ⟨same ▸ inside, .inr same⟩
    · exact ⟨below, .inl member⟩

theorem members_drop (regular : Regular bits s) (inside : bit < bits) :
    (s.drop bit).members = s.members.erase bit := by
  ext other
  have bound : (s.drop bit).bits = s.bits := rfl
  simp only [mem_members, Finset.mem_erase, bound, regular.test_drop inside, Bool.and_eq_true,
    Bool.not_eq_true', decide_eq_false_iff_not]
  tauto

end Regular

theorem Regular.added (regular : Regular bits s) (inside : bit < bits) :
    Regular bits (if s.test bit then s else s.put bit) ∧
      (if s.test bit then s else s.put bit).members = Insert.insert bit s.members := by
  cases held : s.test bit with
  | false => exact ⟨regular.put inside, regular.members_put inside⟩
  | true =>
    have member : bit ∈ s.members := by simp [regular.bits_eq, inside, held]
    exact ⟨regular, (Finset.insert_eq_of_mem member).symm⟩

theorem Regular.taken (regular : Regular bits s) (inside : bit < bits) :
    Regular bits (if s.test bit then s.drop bit else s) ∧
      (if s.test bit then s.drop bit else s).members = s.members.erase bit := by
  cases held : s.test bit with
  | false =>
    have missing : bit ∉ s.members := by simp [held]
    exact ⟨regular, (Finset.erase_eq_of_notMem missing).symm⟩
  | true => exact ⟨regular.drop inside, regular.members_drop inside⟩

/-! ## Counting -/

/-- The bits set in a word are the members among its numbers. -/
theorem onesOf_word (s : BitSet) (index : Nat) :
    onesOf (s.words.peek index) = Nat.count (fun slot => s.test (index * wordBits + slot)) wordBits := by
  rw [onesOf, Nat.count]
  refine List.countP_congr fun slot inside => ?_
  rw [test_place s index (List.mem_range.mp inside), decide_eq_true_eq]
  rfl

/-- The bits set in the first words are the members among their numbers. -/
theorem onesOf_words (s : BitSet) (count : Nat) :
    ((List.range count).map s.words.peek).foldl (fun total word => total + onesOf word) 0 =
      Nat.count (fun bit => s.test bit) (count * wordBits) := by
  induction count with
  | zero => simp
  | succ count inductionHypothesis =>
    rw [List.range_succ, List.map_append, List.foldl_append, inductionHypothesis, Nat.succ_mul,
      Nat.count_add]
    simp [onesOf_word]

theorem Regular.count_eq (regular : Regular bits s) : s.count = s.members.card := by
  -- the words have room for more numbers than there are; what is counted there is nothing
  obtain ⟨spare, whole⟩ : ∃ spare, Word.ceilDiv bits wordBits * wordBits = bits + spare := by
    refine Nat.exists_eq_add_of_le ?_
    rw [Word.ceilDiv, if_neg (by decide)]
    simp only [wordBits]
    omega
  have clean : Nat.count (fun slot => s.test (bits + slot)) spare = 0 := by
    rw [Nat.count_iff_forall_not]
    intro slot inside
    rw [regular.padding (bits + slot) (by omega) (Nat.div_lt_of_lt_mul (by rw [Nat.mul_comm]; omega))]
    simp
  rw [count, Cells.toList, onesOf_words, regular.words.size_eq, whole, Nat.count_add, clean, members,
    regular.bits_eq, Nat.count_eq_card_filter_range]
  rfl

theorem Regular.isFull_iff_members (regular : Regular bits s) :
    s.isFull = true ↔ s.members = range bits := by
  rw [regular.isFull_iff]
  constructor
  · intro full
    refine Finset.Subset.antisymm regular.members_subset fun bit inside => ?_
    have below := Finset.mem_range.mp inside
    simp [regular.bits_eq, below, full bit below]
  · intro same bit inside
    have member : bit ∈ s.members := by simp [same, inside]
    exact (mem_members.mp member).2

/-- Bits are counted without a mask and compared under one, and yet the two agree. -/
theorem Regular.isFull_iff_count (regular : Regular bits s) : s.isFull = true ↔ s.count = bits := by
  rw [regular.isFull_iff_members, regular.count_eq]
  constructor
  · intro same
    rw [same, Finset.card_range]
  · intro many
    exact Finset.eq_of_subset_of_card_le regular.members_subset (by rw [many, Finset.card_range])

/-! ## Requests -/

/-- What can be done with one number. -/
inductive Operation where
  | contains
  | testAndSet
  | insert
  | erase

inductive Reply where
  | done
  | flag (flag : Bool)
  | number (number : Nat)
  | failed (fault : Fault)
  deriving DecidableEq

namespace Operation

def onBits (bit : Nat) (s : BitSet) : Operation → Except Fault (Reply × BitSet)
  | contains => do return (.flag (← s.contains bit), s)
  | testAndSet => do
      let (new, s) ← s.testAndSet bit
      return (.flag new, s)
  | insert => do return (.done, ← s.insert bit)
  | erase => do return (.done, ← s.erase bit)

def onMembers (bit : Nat) (members : Finset Nat) : Operation → Reply × Finset Nat
  | contains => (.flag (bit ∈ members), members)
  | testAndSet => (.flag (bit ∉ members), Insert.insert bit members)
  | insert => (.done, Insert.insert bit members)
  | erase => (.done, members.erase bit)

theorem onBits_of_ge (operation : Operation) (regular : Regular bits s) (outside : ¬bit < bits) :
    operation.onBits bit s = .error (.bitOutOfBounds bit bits) := by
  have refused : s.check bit = .error (.bitOutOfBounds bit bits) := by
    rw [BitSet.check, regular.bits_eq, if_neg outside]
  cases operation <;>
    simp [onBits, BitSet.contains, BitSet.testAndSet, BitSet.insert, BitSet.erase, refused, bind, Except.bind]

theorem onBits_of_lt (operation : Operation) (regular : Regular bits s) (inside : bit < bits) :
    ∃ reply t, operation.onBits bit s = .ok (reply, t) ∧ Regular bits t ∧
      operation.onMembers bit s.members = (reply, t.members) := by
  have check : s.check bit = .ok () := by rw [BitSet.check, regular.bits_eq, if_pos inside]
  have tested := regular.test_eq_decide inside
  -- a bit is written only if it changes; either way the set is what it should be
  obtain ⟨regularAdded, added⟩ := regular.added inside
  obtain ⟨regularTaken, taken⟩ := regular.taken inside
  cases operation with
  | contains =>
    refine ⟨.flag (s.test bit), s, ?_, regular, ?_⟩
    · simp [onBits, BitSet.contains, check, bind, Except.bind, pure, Except.pure]
    · rw [onMembers, tested]
  | testAndSet =>
    refine ⟨.flag !s.test bit, _, ?_, regularAdded, ?_⟩
    · rw [onBits, BitSet.testAndSet, check]
      cases s.test bit <;> rfl
    · rw [onMembers, added, tested, decide_not]
  | insert =>
    refine ⟨.done, _, ?_, regularAdded, ?_⟩
    · rw [onBits, regular.insert inside]
      rfl
    · simp [onMembers, added]
  | erase =>
    refine ⟨.done, _, ?_, regularTaken, ?_⟩
    · rw [onBits, BitSet.erase, check]
      cases s.test bit <;> rfl
    · simp [onMembers, taken]

end Operation

/-- What a set of bits can be asked. -/
inductive Request where
  | at (bit : Nat) (operation : Operation)
  | clear
  | count
  | isFull

namespace Request

/-- What a set of bits replies, and what it is afterwards: as it was, if it fails. -/
def onBits (request : Request) : StateM BitSet Reply := fun s =>
  match request with
  | .at bit operation =>
      match operation.onBits bit s with
      | .ok answered => answered
      | .error fault => (.failed fault, s)
  | .clear => (.done, s.clear)
  | .count => (.number s.count, s)
  | .isFull => (.flag s.isFull, s)

/-- What a finite set of numbers below a bound replies, and what it is afterwards. -/
def onMembers (bits : Nat) (request : Request) : StateM (Finset Nat) Reply := fun members =>
  match request with
  | .at bit operation =>
      if bit < bits then operation.onMembers bit members
      else (.failed (.bitOutOfBounds bit bits), members)
  | .clear => (.done, ∅)
  | .count => (.number members.card, members)
  | .isFull => (.flag (members = range bits), members)

/-- One request is answered alike, and leaves a regular set of the members that it should have. -/
theorem onBits_eq (request : Request) (s : BitSet) (members : Finset Nat)
    (start : Regular bits s ∧ s.members = members) :
    (request.onBits.run s).1 = ((request.onMembers bits).run members).1 ∧
      Regular bits (request.onBits.run s).2 ∧
        (request.onBits.run s).2.members = ((request.onMembers bits).run members).2 := by
  obtain ⟨regular, rfl⟩ := start
  simp only [StateT.run, onBits, onMembers]
  cases request with
  | «at» bit operation =>
    by_cases inside : bit < bits
    · obtain ⟨reply, t, answered, regularToo, same⟩ := operation.onBits_of_lt regular inside
      simp [answered, inside, same, regularToo]
    · simp [operation.onBits_of_ge regular inside, inside, regular]
  | clear =>
    rw [regular.clear_eq_new]
    exact ⟨rfl, regular_new bits, members_new bits⟩
  | count => exact ⟨congrArg Reply.number regular.count_eq, regular, rfl⟩
  | isFull =>
    refine ⟨?_, regular, rfl⟩
    simp [← regular.isFull_iff_members]

end Request

/-- From the empty set on, a set of bits replies what a finite set of numbers replies, and has its members.
No bit that stands for no number is ever set, and so counting without a mask and comparing under one agree. -/
theorem refines_finset (bits : Nat) (requests : List Request) :
    ∃ replies s members, (requests.mapM Request.onBits).run (new bits) = (replies, s) ∧
      (requests.mapM (Request.onMembers bits)).run ∅ = (replies, members) ∧ members ⊆ range bits ∧
      (∀ bit < bits, s.contains bit = .ok (decide (bit ∈ members))) ∧
      s.count = members.card ∧ (s.isFull = true ↔ members = range bits) ∧
      (∀ bit, bits ≤ bit → bit / wordBits < s.words.size →
        (s.words.peek (bit / wordBits)).toBitVec.getLsbD (bit % wordBits) = false) ∧
      (s.isFull = true ↔ s.count = bits) := by
  have alike := Lockstep.alike_mapM Request.onBits_eq requests ⟨regular_new bits, members_new bits⟩
  cases answered : (requests.mapM Request.onBits).run (new bits) with | mk replies s =>
  cases expected : (requests.mapM (Request.onMembers bits)).run ∅ with | mk repliesToo members =>
  rw [answered, expected] at alike
  obtain ⟨rfl, regular, rfl⟩ := alike
  refine ⟨replies, s, s.members, rfl, rfl, regular.members_subset, fun bit inside => ?_, regular.count_eq,
    regular.isFull_iff_members, fun bit behind word => ?_, regular.isFull_iff_count⟩
  · rw [contains, BitSet.check, regular.bits_eq, if_pos inside, ← regular.test_eq_decide inside]
    rfl
  · rw [regular.words.size_eq] at word
    rw [← wordOf, ← test_eq, regular.padding bit behind word]

end BulkSync.BitSet
