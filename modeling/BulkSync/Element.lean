import BulkSync.Fault
import BulkSync.Value

/-!
# Element kinds

An element kind is a type of numbers that fits into one 64-bit word: the integers of 32 and 64 bits
with and without a sign, and the two binary formats. Shared arrays hold words, so each kind says how
an element is written into a word and read back.

Integers add with a check (`add?`) or wrap; binary numbers round and never fail.
-/

namespace BulkSync

/-- The numbers that arrays and messages are made of. -/
class Element (α : Type) extends Inhabited α where
  /-- The bytes that one element takes. -/
  width : Nat
  /-- The word of an element; integers with a sign are extended by it. -/
  toWord : α → UInt64
  /-- The element of a word. -/
  ofWord : UInt64 → α
  /-- A word holds all of the element that was written into it. -/
  ofWord_toWord (a : α) : ofWord (toWord a) = a
  one : α
  /-- The greatest finite element. -/
  greatest : α
  /-- The least finite element. -/
  least : α
  /-- Strictly below, as numbers. -/
  less : α → α → Bool
  /-- The sum, unless it leaves the range of an integer kind. -/
  add? : α → α → Except Fault α
  /-- The sum, wrapped around for integers. -/
  wrappingAdd : α → α → α
  /-- The product, wrapped around for integers. -/
  wrappingMul : α → α → α
  /-- The element for an index: cut off to the low bits, or rounded. -/
  ofIndex : Nat → α
  /-- The element for a value: an integer wraps or rounds, a double is cut off and pressed into the
  range, or rounds. -/
  ofValue : Value → α
  /-- The value of an element. -/
  toValue : α → Value

namespace Element

/-- Whether two elements have the same word; stricter than equality of numbers, since it tells the
two zeros apart, and defined also for NaNs. -/
def sameWord {α : Type} [Element α] (a b : α) : Bool := toWord a == toWord b

theorem sameWord_iff {α : Type} [Element α] {a b : α} : sameWord a b = true ↔ a = b := by
  constructor
  · intro h
    rw [← ofWord_toWord a, ← ofWord_toWord b, eq_of_beq h]
  · rintro rfl
    simp [sameWord]

/-- `result` if the exact sum is in the range. -/
def checkedSum {α : Type} (least greatest sum : Int) (result : α) : Except Fault α :=
  if least ≤ sum ∧ sum ≤ greatest then .ok result else .error .additionOverflow

instance : Element Int32 where
  width := 4
  toWord a := a.toInt64.toUInt64
  ofWord w := w.toInt64.toInt32
  ofWord_toWord a := by simp
  one := 1
  greatest := Int32.maxValue
  least := Int32.minValue
  less a b := decide (a < b)
  add? a b := checkedSum Int32.minValue.toInt Int32.maxValue.toInt (a.toInt + b.toInt) (a + b)
  wrappingAdd := (· + ·)
  wrappingMul := (· * ·)
  ofIndex i := Int32.ofNat i
  ofValue
    | .long i => i.toInt32
    | .double x => Int32.ofInt (x.toIntWithin Int32.minValue.toInt Int32.maxValue.toInt)
  toValue a := .long a.toInt64

instance : Element UInt32 where
  width := 4
  toWord a := a.toUInt64
  ofWord w := w.toUInt32
  ofWord_toWord a := by simp
  one := 1
  greatest := UInt32.ofNat (UInt32.size - 1)
  least := 0
  less a b := decide (a < b)
  add? a b := checkedSum 0 (UInt32.size - 1) (a.toNat + b.toNat) (a + b)
  wrappingAdd := (· + ·)
  wrappingMul := (· * ·)
  ofIndex i := UInt32.ofNat i
  ofValue
    | .long i => i.toUInt64.toUInt32
    | .double x => UInt32.ofNat (x.toIntWithin 0 (UInt32.size - 1)).toNat
  toValue a := .long a.toUInt64.toInt64

instance : Element Int64 where
  width := 8
  toWord a := a.toUInt64
  ofWord w := w.toInt64
  ofWord_toWord a := by simp
  one := 1
  greatest := Int64.maxValue
  least := Int64.minValue
  less a b := decide (a < b)
  add? a b := checkedSum Int64.minValue.toInt Int64.maxValue.toInt (a.toInt + b.toInt) (a + b)
  wrappingAdd := (· + ·)
  wrappingMul := (· * ·)
  ofIndex i := Int64.ofNat i
  ofValue v := v.toLong
  toValue a := .long a

instance : Element UInt64 where
  width := 8
  toWord a := a
  ofWord w := w
  ofWord_toWord _ := rfl
  one := 1
  greatest := UInt64.ofNat (UInt64.size - 1)
  least := 0
  less a b := decide (a < b)
  add? a b := checkedSum 0 (UInt64.size - 1) (a.toNat + b.toNat) (a + b)
  wrappingAdd := (· + ·)
  wrappingMul := (· * ·)
  ofIndex i := UInt64.ofNat i
  ofValue
    | .long i => i.toUInt64
    | .double x => UInt64.ofNat (x.toIntWithin 0 (UInt64.size - 1)).toNat
  toValue a := .long a.toInt64

instance : Element Binary32 where
  width := 4
  toWord a := UInt64.ofBitVec (a.bits.setWidth 64)
  ofWord w := ⟨w.toBitVec.setWidth _⟩
  ofWord_toWord a := by
    have fits : (a.bits.setWidth 64).setWidth Format.single.width = a.bits := by
      rw [BitVec.setWidth_setWidth_of_le a.bits (by decide), BitVec.setWidth_eq]
    exact congrArg Binary.mk fits
  one := Binary.ofInt 1
  greatest := Binary.greatestFinite
  least := Binary.leastFinite
  less := Binary.less
  add? a b := .ok (a.add b)
  wrappingAdd := Binary.add
  wrappingMul := Binary.mul
  ofIndex i := Binary.ofInt i
  ofValue
    | .long i => Binary.ofInt i.toInt
    | .double x => x.convert
  toValue a := .double a.convert

instance : Element Binary64 where
  width := 8
  toWord a := UInt64.ofBitVec a.bits
  ofWord w := ⟨w.toBitVec⟩
  ofWord_toWord _ := rfl
  one := Binary.ofInt 1
  greatest := Binary.greatestFinite
  least := Binary.leastFinite
  less := Binary.less
  add? a b := .ok (a.add b)
  wrappingAdd := Binary.add
  wrappingMul := Binary.mul
  ofIndex i := Binary.ofInt i
  ofValue v := v.toDouble
  toValue a := .double a

end Element
end BulkSync
