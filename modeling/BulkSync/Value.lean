import BulkSync.Binary.Arithmetic

/-!
# Values of properties and expressions

A value is a 64-bit integer or a double. Integers become doubles by rounding; doubles become
integers by cutting off the fraction, pressed into the range of integers.
-/

namespace BulkSync

/-- An integer or a double. -/
inductive Value where
  | long (value : Int64)
  | double (value : Binary64)
  deriving DecidableEq

namespace Value

instance : Inhabited Value := ⟨.long 0⟩

/-- The integer that a double is cut off to. -/
def cutOff (x : Binary64) : Int64 :=
  Int64.ofInt (x.toIntWithin Int64.minValue.toInt Int64.maxValue.toInt)

/-- The double nearest to a value. -/
def toDouble : Value → Binary64
  | .long i => Binary.ofInt i.toInt
  | .double x => x

/-- The integer that a value is cut off to. -/
def toLong : Value → Int64
  | .long i => i
  | .double x => cutOff x

/-- Whether a value counts as true: it is not zero. A NaN is true. -/
def isTrue : Value → Bool
  | .long i => decide (i ≠ 0)
  | .double x => decide (x.magnitude ≠ 0)

/-- One for true, zero for false. -/
def ofBool (b : Bool) : Value := .long (if b then 1 else 0)

end Value
end BulkSync
