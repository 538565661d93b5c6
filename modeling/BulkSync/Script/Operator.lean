import BulkSync.Fault
import BulkSync.Value

/-!
# Operators on values

Sums, differences and products of two integers are integers and wrap around; with a double among the
operands both are taken as doubles. Two integers are compared exactly, all else as doubles. The lesser
and the greater of two values keep their type; the first one is taken unless the second is strictly
better.
-/

namespace BulkSync

/-- The operators with two operands. -/
inductive Operator where
  | add
  | sub
  | mul
  /-- The quotient as doubles. -/
  | div
  /-- The remainder of integers; it is never negative. -/
  | mod
  | less
  | equal
  | min
  | max
  deriving DecidableEq, Repr

namespace Value

/-- Applies one function to two integers, another to all else as doubles. -/
def lift₂ {α : Type} (longs : Int64 → Int64 → α) (doubles : Binary64 → Binary64 → α) :
    Value → Value → α
  | .long a, .long b => longs a b
  | a, b => doubles a.toDouble b.toDouble

/-- The sum of two values. -/
def add : Value → Value → Value :=
  lift₂ (fun a b => .long (a + b)) (fun a b => .double (a.add b))

/-- Whether a value is strictly below another. -/
def less : Value → Value → Bool := lift₂ (fun a b => decide (a < b)) Binary.less

/-- The second value if it is strictly below the first, else the first. -/
def min (a b : Value) : Value := if less b a then b else a

/-- The second value if it is strictly above the first, else the first. -/
def max (a b : Value) : Value := if less a b then b else a

/-- The remainder that is not negative. It fails for zero, and for the least integer by minus one, whose
quotient is one more than the greatest integer. -/
def mod (a b : Value) : Except Fault Value :=
  if b.toLong = 0 then .error .remainderByZero
  else if a.toLong = Int64.minValue ∧ b.toLong = -1 then .error .remainderOverflow
  else .ok (.long (Int64.ofInt (a.toLong.toInt % b.toLong.toInt)))

end Value

/-- The value of an operator. -/
def Operator.apply (a b : Value) : Operator → Except Fault Value
  | .add => .ok (a.add b)
  | .sub => .ok (Value.lift₂ (fun a b => .long (a - b)) (fun a b => .double (a.sub b)) a b)
  | .mul => .ok (Value.lift₂ (fun a b => .long (a * b)) (fun a b => .double (a.mul b)) a b)
  | .div => .ok (.double (a.toDouble.div b.toDouble))
  | .mod => a.mod b
  | .less => .ok (.ofBool (a.less b))
  | .equal => .ok (.ofBool (Value.lift₂ (fun a b => a == b) Binary.sameNumber a b))
  | .min => .ok (a.min b)
  | .max => .ok (a.max b)

end BulkSync
