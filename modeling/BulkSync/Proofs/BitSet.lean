import BulkSync.BitSet
import BulkSync.Proofs.Paged.Regular

/-! # Members of sets of bits

`BitSet.test` is all that can be seen of a set, and `put`, `drop` and `clear` change it at the number
they are given and nowhere else. A set is full if every number below its bound tests as a member,
although it is decided word by word and under a mask for the last one (`Regular.isFull_iff`). As the
bits at and beyond the bound are never set, a set is known by its members (`Regular.ext`). -/

namespace BulkSync.BitSet

/-- A set of numbers below `bits` that was never released, with no bit set at or beyond the bound. -/
structure Regular (bits : Nat) (s : BitSet) : Prop where
  bits_eq : s.bits = bits
  words : Cells.Regular (Word.ceilDiv bits wordBits) s.words
  padding : ∀ bit, bits ≤ bit → bit / wordBits < Word.ceilDiv bits wordBits → s.test bit = false

/-! ## Bits of words -/

theorem slot_lt (bit : Nat) : bit % wordBits < 64 := Nat.mod_lt _ (by decide)

theorem toBitVec_mask (bit : Nat) : (mask bit).toBitVec = BitVec.twoPow 64 (bit % wordBits) := by
  have bound := slot_lt bit
  apply BitVec.eq_of_toNat_eq
  simp [mask, wordBits, BitVec.twoPow]

theorem test_eq (s : BitSet) (bit : Nat) :
    s.test bit = (s.wordOf bit).toBitVec.getLsbD (bit % wordBits) := by
  have bound := slot_lt bit
  have masked : (s.wordOf bit &&& mask bit).toBitVec =
      if (s.wordOf bit).toBitVec.getLsbD (bit % wordBits) then BitVec.twoPow 64 (bit % wordBits)
      else 0#64 := by
    rw [UInt64.toBitVec_and, toBitVec_mask, BitVec.and_twoPow]
  have nonzero : BitVec.twoPow 64 (bit % wordBits) ≠ 0#64 := by
    intro zero
    have bits := congrArg (·.getLsbD (bit % wordBits)) zero
    simp [bound] at bits
  rw [test, Bool.eq_iff_iff, bne_iff_ne, ne_eq, ← UInt64.toBitVec_inj, masked]
  split
  · next set => simp [set, nonzero]
  · next unset => simp [unset]

/-- The number at a place of a word is a member if the bit at that place is set. -/
theorem test_place (s : BitSet) (index : Nat) {slot : Nat} (inside : slot < wordBits) :
    s.test (index * wordBits + slot) = (s.words.peek index : UInt64).toBitVec.getLsbD slot := by
  have word : (index * wordBits + slot) / wordBits = index := by
    simp only [wordBits] at *
    omega
  have place : (index * wordBits + slot) % wordBits = slot := by
    simp only [wordBits] at *
    omega
  rw [test_eq, wordOf, word, place]

theorem getLsbD_or_mask (word : UInt64) (bit slot : Nat) :
    (word ||| mask bit).toBitVec.getLsbD slot =
      (word.toBitVec.getLsbD slot || decide (slot = bit % wordBits)) := by
  have bound := slot_lt bit
  rw [UInt64.toBitVec_or, toBitVec_mask, BitVec.getLsbD_or, BitVec.getLsbD_twoPow]
  simp [bound, eq_comm]

theorem getLsbD_and_not_mask (word : UInt64) (bit slot : Nat) :
    (word &&& ~~~mask bit).toBitVec.getLsbD slot =
      (word.toBitVec.getLsbD slot && !decide (slot = bit % wordBits)) := by
  rw [UInt64.toBitVec_and, UInt64.toBitVec_not, toBitVec_mask, BitVec.getLsbD_and, BitVec.getLsbD_not,
    BitVec.getLsbD_twoPow]
  by_cases inside : slot < 64
  · simp [inside, slot_lt bit, eq_comm]
  · have none : word.toBitVec.getLsbD slot = false := BitVec.getLsbD_of_ge _ _ (by omega)
    simp [none]

theorem eq_fullWord_iff (word : UInt64) :
    word = fullWord ↔ ∀ slot < 64, word.toBitVec.getLsbD slot = true := by
  have full : fullWord.toBitVec = BitVec.allOnes 64 := by decide
  rw [← UInt64.toBitVec_inj, full]
  constructor
  · intro equal slot inside
    rw [equal, BitVec.getLsbD_allOnes]
    simpa using inside
  · intro set
    apply BitVec.eq_of_getLsbD_eq
    intro slot inside
    rw [set slot inside, BitVec.getLsbD_allOnes]
    simpa using inside

/-- The word with the lowest `count` bits set. -/
def lowest (count : Nat) : UInt64 := (1 <<< UInt64.ofNat count) - 1

theorem getLsbD_lowest {count : Nat} (bound : count < 64) (slot : Nat) :
    (lowest count).toBitVec.getLsbD slot = decide (slot < count) := by
  have value : (lowest count).toNat = 2 ^ count - 1 := by
    have power : 2 ^ count < 2 ^ 64 := Nat.pow_lt_pow_right (by decide) bound
    have positive := Nat.two_pow_pos count
    have small : (UInt64.ofNat count).toNat = count :=
      UInt64.toNat_ofNat_of_lt' (by rw [UInt64.size]; omega)
    have shifted : (1 <<< UInt64.ofNat count : UInt64).toNat = 2 ^ count := by
      rw [UInt64.toNat_shiftLeft, small, Nat.mod_eq_of_lt bound, UInt64.toNat_one, Nat.one_shiftLeft,
        Nat.mod_eq_of_lt power]
    have above : (1 : UInt64) ≤ 1 <<< UInt64.ofNat count := by
      rw [UInt64.le_iff_toNat_le, shifted]
      exact positive
    rw [lowest, UInt64.toNat_sub_of_le _ _ above, shifted]
    rfl
  rw [← BitVec.testBit_toNat, UInt64.toNat_toBitVec, value, Nat.testBit_two_pow_sub_one]

/-! ## Single numbers -/

theorem word_lt {bits bit : Nat} (inside : bit < bits) :
    bit / wordBits < Word.ceilDiv bits wordBits := by
  rw [Word.ceilDiv, if_neg (by decide)]
  simp only [wordBits]
  omega

theorem test_blank {bits bit : Nat} (inside : bit / wordBits < Word.ceilDiv bits wordBits) :
    (new bits).test bit = false := by
  have blank : (new bits).wordOf bit = 0 := by
    rw [wordOf, new, Cells.peek, Cells.peekWord_new inside]
    rfl
  simp [test, blank]

theorem test_new {bits bit : Nat} (inside : bit < bits) : (new bits).test bit = false :=
  test_blank (word_lt inside)

theorem regular_new (bits : Nat) : Regular bits (new bits) :=
  ⟨rfl, Cells.regular_new _, fun _ _ inside => test_blank inside⟩

namespace Regular

variable {bits : Nat} {s : BitSet}

/-- The word of a number, after the word of another one was overwritten. -/
theorem wordOf_poke (regular : Regular bits s) {bit : Nat} (inside : bit < bits) (word : UInt64)
    (other : Nat) :
    wordOf { s with words := s.words.poke (bit / wordBits) word } other =
      if other / wordBits = bit / wordBits then word else s.wordOf other := by
  split
  · next same =>
    simp only [wordOf, same]
    exact regular.words.peek_poke (word_lt inside) word
  · next different =>
    exact Cells.peek_poke_ne _ word (Ne.symm different)

theorem test_put (regular : Regular bits s) {bit : Nat} (inside : bit < bits) (other : Nat) :
    (s.put bit).test other = (s.test other || decide (other = bit)) := by
  rw [test_eq, test_eq, BitSet.put, regular.wordOf_poke inside]
  split
  · next same =>
    have slots : other % wordBits = bit % wordBits ↔ other = bit := by
      simp only [wordBits] at *
      omega
    simp only [getLsbD_or_mask, slots]
    rw [wordOf, wordOf, same]
  · next different =>
    have distinct : other ≠ bit := fun equal => different (by rw [equal])
    simp [distinct]

theorem test_drop (regular : Regular bits s) {bit : Nat} (inside : bit < bits) (other : Nat) :
    (s.drop bit).test other = (s.test other && !decide (other = bit)) := by
  rw [test_eq, test_eq, BitSet.drop, regular.wordOf_poke inside]
  split
  · next same =>
    have slots : other % wordBits = bit % wordBits ↔ other = bit := by
      simp only [wordBits] at *
      omega
    simp only [getLsbD_and_not_mask, slots]
    rw [wordOf, wordOf, same]
  · next different =>
    have distinct : other ≠ bit := fun equal => different (by rw [equal])
    simp [distinct]

theorem put (regular : Regular bits s) {bit : Nat} (inside : bit < bits) : Regular bits (s.put bit) where
  bits_eq := regular.bits_eq
  words := regular.words.pokeWord (word_lt inside) _
  padding other behind word := by
    -- a number at or beyond the bound is not the one that is put in
    rw [regular.test_put inside, regular.padding other behind word]
    simp only [Bool.false_or, decide_eq_false_iff_not]
    omega

theorem drop (regular : Regular bits s) {bit : Nat} (inside : bit < bits) : Regular bits (s.drop bit) where
  bits_eq := regular.bits_eq
  words := regular.words.pokeWord (word_lt inside) _
  padding other behind word := by
    rw [regular.test_drop inside, regular.padding other behind word, Bool.false_and]

theorem insert (regular : Regular bits s) {bit : Nat} (inside : bit < bits) :
    s.insert bit = .ok (if s.test bit then s else s.put bit) := by
  have check : s.check bit = .ok () := by rw [BitSet.check, regular.bits_eq, if_pos inside]
  rw [BitSet.insert, testAndSet, check]
  cases s.test bit <;> rfl

/-- Nothing is left of the members of a set that is cleared. -/
theorem clear_eq_new (regular : Regular bits s) : s.clear = new bits := by
  have words : s.clear.words = (new bits).words :=
    (regular.words.fill 0).ext (Cells.regular_new _) fun index inside => by
      rw [regular.words.peekWord_fill 0 inside]
      exact (Cells.peekWord_new inside).symm
  calc s.clear = ⟨s.bits, s.clear.words⟩ := rfl
    _ = new bits := by rw [words, regular.bits_eq]; rfl

theorem ext {t : BitSet} (regular : Regular bits s) (regularToo : Regular bits t)
    (same : ∀ bit < bits, s.test bit = t.test bit) : s = t := by
  have everywhere : ∀ bit, bit / wordBits < Word.ceilDiv bits wordBits → s.test bit = t.test bit := by
    intro bit word
    rcases Nat.lt_or_ge bit bits with inside | behind
    · exact same bit inside
    · rw [regular.padding bit behind word, regularToo.padding bit behind word]
  have words : s.words = t.words := regular.words.ext regularToo.words fun index inside => by
    have equal : (s.words.peek index : UInt64) = t.words.peek index := by
      -- two words with the same bits are equal, and each bit of the word is some number's
      refine UInt64.toBitVec_inj.mp (BitVec.eq_of_getLsbD_eq fun slot bound => ?_)
      have word : (index * wordBits + slot) / wordBits = index := by
        simp only [wordBits]
        omega
      rw [← test_place s index bound, ← test_place t index bound]
      exact everywhere _ (word.symm ▸ inside)
    exact equal
  cases s
  cases t
  simp only [mk.injEq]
  exact ⟨regular.bits_eq.trans regularToo.bits_eq.symm, words⟩

end Regular

/-! ## Full sets -/

variable {s : BitSet}

/-- Words that are compared as a whole are full if all of their numbers are members. -/
theorem wholes_iff (s : BitSet) (count : Nat) :
    (∀ index < count, s.words.peek index = fullWord) ↔ ∀ bit < count * wordBits, s.test bit = true := by
  constructor
  · intro full bit inside
    rw [test_eq, wordOf, full _ (Nat.div_lt_of_lt_mul (by rwa [Nat.mul_comm]))]
    exact (eq_fullWord_iff _).mp rfl _ (slot_lt bit)
  · intro set index inside
    rw [eq_fullWord_iff]
    intro slot bound
    rw [← test_place s index bound]
    apply set
    simp only [wordBits] at *
    omega

/-- A word that is compared under a mask has all the bits of the mask if those numbers are members. -/
theorem masked_iff (s : BitSet) (index : Nat) {count : Nat} (bound : count < 64) :
    s.words.peek index &&& lowest count = lowest count ↔
      ∀ slot < count, s.test (index * wordBits + slot) = true := by
  have member : ∀ slot < count, s.test (index * wordBits + slot) =
      (s.words.peek index : UInt64).toBitVec.getLsbD slot :=
    fun slot inside => test_place s index (Nat.lt_trans inside bound)
  constructor
  · intro masked slot inside
    have bits := congrArg (·.toBitVec.getLsbD slot) masked
    rw [member slot inside]
    simpa [getLsbD_lowest bound, inside] using bits
  · intro set
    refine UInt64.toBitVec_inj.mp (BitVec.eq_of_getLsbD_eq fun slot _ => ?_)
    rw [UInt64.toBitVec_and, BitVec.getLsbD_and, getLsbD_lowest bound]
    by_cases inside : slot < count
    · simp [inside, ← member slot inside, set slot inside]
    · simp [inside]

/-- A set is full if every number below its bound is a member. -/
theorem Regular.isFull_iff {bits : Nat} (regular : Regular bits s) :
    s.isFull = true ↔ ∀ bit < bits, s.test bit = true := by
  have split := Nat.div_add_mod bits wordBits
  have last : (bits % wordBits = 0 ∨
      s.words.peek (bits / wordBits) &&& lowest (bits % wordBits) = lowest (bits % wordBits)) ↔
        ∀ slot < bits % wordBits, s.test (bits / wordBits * wordBits + slot) = true := by
    rw [masked_iff s _ (slot_lt bits)]
    -- without a rest there is no last word, and nothing that could be a member of it
    exact or_iff_right_of_imp fun none slot inside => by omega
  simp only [isFull, regular.bits_eq, Bool.and_eq_true, Bool.or_eq_true, List.all_eq_true,
    List.mem_range, beq_iff_eq]
  rw [wholes_iff]
  refine (and_congr_right fun _ => last).trans ?_
  constructor
  · rintro ⟨below, above⟩ bit inside
    rcases Nat.lt_or_ge bit (bits / wordBits * wordBits) with low | high
    · exact below bit low
    · have slot := above (bit - bits / wordBits * wordBits) (by simp only [wordBits] at *; omega)
      rwa [Nat.add_sub_cancel' high] at slot
  · intro set
    exact ⟨fun bit low => set bit (by simp only [wordBits] at *; omega),
      fun slot inside => set _ (by simp only [wordBits] at *; omega)⟩

end BulkSync.BitSet
