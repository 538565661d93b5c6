import BulkSync.Fault

/-!
# Counts of 64 bits

Sizes, indices and counts are natural numbers below `2 ^ 64`. Where a sum or a product could leave
that range it is either checked (`add?`, `mul?`, `ceilDiv?`) or saturating (`satAdd`, `satMul`). A remainder by
zero is none (`mod?`).
-/

namespace BulkSync.Word

/-- The number of 64-bit counts. -/
def limit : Nat := UInt64.size

/-- The greatest 64-bit count. -/
def top : Nat := limit - 1

/-- The sum, unless it needs more than 64 bits. -/
def add? (a b : Nat) : Except Fault Nat :=
  if a + b < limit then .ok (a + b) else .error .additionOverflow

/-- The product, unless it needs more than 64 bits. -/
def mul? (a b : Nat) : Except Fault Nat :=
  if a * b < limit then .ok (a * b) else .error .multiplicationOverflow

/-- The remainder, unless it is one by zero. -/
def mod? (a b : Nat) : Except Fault Nat :=
  if b = 0 then .error .remainderByZero else .ok (a % b)

/-- The sum, or the greatest count if the sum is beyond it. -/
def satAdd (a b : Nat) : Nat := min (a + b) top

/-- The product, or the greatest count if the product is beyond it. -/
def satMul (a b : Nat) : Nat := min (a * b) top

/-- The least number of pieces of size `b` that cover `a`; zero for pieces of size zero. -/
def ceilDiv (a b : Nat) : Nat := if b = 0 then 0 else (a + b - 1) / b

/-- The least number of pieces of size `b` that cover `a`: the quotient, and one more for a rest. -/
def ceilDiv? (a b : Nat) : Except Fault Nat := if a % b = 0 then .ok (a / b) else add? (a / b) 1

/-- The bytes of a list that an address space can hold: positive numbers of a signed word. -/
def greatestBytes : Nat := limit / 2 - 1

/-- Fails if a list of `count` entries of `bytes` bytes each cannot be reserved. -/
def reserve (count bytes : Nat) : Except Fault Unit :=
  if count * bytes ≤ greatestBytes then .ok () else .error .capacityOverflow

end BulkSync.Word
