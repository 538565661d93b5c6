import BulkSync.Paged.Cells

/-!
# Sets of bits

A set of numbers below a bound, one bit each, packed into 64-bit words that lie in a shared paged
array. The bits of the last word at and beyond the bound are never set.
-/

namespace BulkSync

/-- A set of numbers below `bits`. -/
structure BitSet where
  bits : Nat
  words : Cells UInt64

namespace BitSet

/-- The bits of a word. -/
def wordBits : Nat := 64

/-- The word with all bits set. -/
def fullWord : UInt64 := UInt64.ofNat (UInt64.size - 1)

/-- The empty set of numbers below `bits`. -/
def new (bits : Nat) : BitSet := ⟨bits, Cells.new (Word.ceilDiv bits wordBits)⟩

/-- The word with the bit of a number alone. -/
def mask (bit : Nat) : UInt64 := 1 <<< UInt64.ofNat (bit % wordBits)

/-- The word in which a number has its bit. -/
def wordOf (s : BitSet) (bit : Nat) : UInt64 := s.words.peek (bit / wordBits)

/-! ## Single bits -/

/-- Whether the bit of a number is set. -/
def test (s : BitSet) (bit : Nat) : Bool := s.wordOf bit &&& mask bit != 0

/-- Sets the bit of a number. -/
def put (s : BitSet) (bit : Nat) : BitSet :=
  { s with words := s.words.poke (bit / wordBits) (s.wordOf bit ||| mask bit) }

/-- Clears the bit of a number. -/
def drop (s : BitSet) (bit : Nat) : BitSet :=
  { s with words := s.words.poke (bit / wordBits) (s.wordOf bit &&& ~~~mask bit) }

/-- Fails for a number beyond the bound. -/
def check (s : BitSet) (bit : Nat) : Except Fault Unit :=
  if bit < s.bits then .ok () else .error (.bitOutOfBounds bit s.bits)

/-- Whether a number is in the set. -/
def contains (s : BitSet) (bit : Nat) : Except Fault Bool := do
  s.check bit
  return s.test bit

/-- Puts a number into the set and says whether it is new. -/
def testAndSet (s : BitSet) (bit : Nat) : Except Fault (Bool × BitSet) := do
  s.check bit
  if s.test bit then return (false, s)
  else return (true, s.put bit)

/-- Puts a number into the set. -/
def insert (s : BitSet) (bit : Nat) : Except Fault BitSet := do
  let (_, s) ← s.testAndSet bit
  return s

/-- Takes a number out of the set. -/
def erase (s : BitSet) (bit : Nat) : Except Fault BitSet := do
  s.check bit
  if s.test bit then return s.drop bit
  else return s

/-! ## The whole set -/

/-- The empty set of the same bound. -/
def clear (s : BitSet) : BitSet := { s with words := s.words.fill 0 }

/-- The number of bits that are set in a word. -/
def onesOf (word : UInt64) : Nat := (List.range wordBits).countP fun bit => word.toNat.testBit bit

/-- The number of bits that are set. -/
def count (s : BitSet) : Nat := s.words.toList.foldl (fun total word => total + onesOf word) 0

/-- Whether every number below the bound is in the set. The full words are compared as a whole, the
last one under a mask. -/
def isFull (s : BitSet) : Bool :=
  let full := s.bits / wordBits
  let tail := s.bits % wordBits
  let wholes := (List.range full).all fun index => s.words.peek index == fullWord
  -- only the lowest bits of the last word stand for numbers below the bound
  let last : UInt64 := (1 <<< UInt64.ofNat tail) - 1
  wholes && (tail == 0 || (s.words.peek full &&& last) == last)

/-- The numbers in the set, in ascending order. -/
def toList (s : BitSet) : List Nat := (List.range s.bits).filter s.test

/-- Applies a change to `count` numbers from `bit` on, in order, up to the first that fails. -/
def forRange (change : BitSet → Nat → Except Fault BitSet) :
    Nat → Nat → BitSet → Except Fault Unit × BitSet
  | 0, _, s => (.ok (), s)
  | count + 1, bit, s =>
      match change s bit with
      | .ok s => forRange change count (bit + 1) s
      | .error fault => (.error fault, s)

/-- Puts the numbers of a range into the set, up to the first beyond the bound. -/
def insertRange (start stop : Nat) : Attempt BitSet Unit :=
  Attempt.of (forRange insert (stop - start) start)

/-- Takes the numbers of a range out of the set, up to the first beyond the bound. -/
def eraseRange (start stop : Nat) : Attempt BitSet Unit :=
  Attempt.of (forRange erase (stop - start) start)

/-- The outline of a set: its measures without its members. -/
def describe (s : BitSet) : String :=
  s!"AtomicBitSet \x7b bits: {s.bits}, words: " ++ s.words.describe ++ " \x7d"

end BitSet
end BulkSync
