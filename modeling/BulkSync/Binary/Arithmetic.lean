import BulkSync.Binary.Format

/-!
# Arithmetic on binary numbers

Sums, differences, products and quotients are computed exactly on the values of the operands and
rounded once. An operand that is no number is handed on, quieted, the left one first; an operation
without a result (such as the difference of two infinities) is `Binary.invalid`.
-/

namespace BulkSync.Binary

variable {f g : Format}

/-- Hands on an operand that is no number, and else computes on the readings. -/
def onNumbers (x y : Binary f) (compute : Reading → Reading → Binary f) : Binary f :=
  if x.isNaN then x.quiet
  else if y.isNaN then y.quiet
  else compute x.read y.read

/-- A mantissa with its sign. -/
def signed (negative : Bool) (mantissa : Nat) : Int := if negative then -(mantissa : Int) else mantissa

/-- The sum of two values. An exact sum of zero is positive unless both operands are negative. -/
def addReadings : Reading → Reading → Binary f
  | .infinite s, .infinite t => if s = t then infinite s else invalid
  | .infinite s, _ => infinite s
  | _, .infinite t => infinite t
  | .finite s m e, .finite t n d =>
      let low := min e d
      let sum := signed s (m <<< (e - low).toNat) + signed t (n <<< (d - low).toNat)
      let negative := if sum = 0 then s && t else decide (sum < 0)
      roundScaled negative sum.natAbs low
  | _, _ => invalid

/-- The product of two values. -/
def mulReadings : Reading → Reading → Binary f
  | .infinite s, .infinite t => infinite (s != t)
  | .infinite s, .finite t n _ => if n = 0 then invalid else infinite (s != t)
  | .finite s m _, .infinite t => if m = 0 then invalid else infinite (s != t)
  | .finite s m e, .finite t n d => roundScaled (s != t) (m * n) (e + d)
  | _, _ => invalid

/-- The quotient of two values. -/
def divReadings : Reading → Reading → Binary f
  | .infinite _, .infinite _ => invalid
  | .infinite s, .finite t _ _ => infinite (s != t)
  | .finite s _ _, .infinite t => ofParts (s != t) 0
  | .finite s m e, .finite t n d =>
      if n = 0 then (if m = 0 then invalid else infinite (s != t))
      else
        let low := min e d
        round (s != t) (m <<< (e - low).toNat) (n <<< (d - low).toNat)
  | _, _ => invalid

/-- The sum, rounded. -/
def add (x y : Binary f) : Binary f := onNumbers x y addReadings

/-- The difference, rounded. -/
def sub (x y : Binary f) : Binary f := onNumbers x y fun a b => addReadings a (b.negate)

/-- The product, rounded. -/
def mul (x y : Binary f) : Binary f := onNumbers x y mulReadings

/-- The quotient, rounded. -/
def div (x y : Binary f) : Binary f := onNumbers x y divReadings

/-! ## Conversions -/

/-- The number nearest to an integer. -/
def ofInt (i : Int) : Binary f := round (decide (i < 0)) i.natAbs 1

/-- The number nearest to `± digits * 10 ^ exponent`. -/
def ofDecimal (negative : Bool) (digits : Nat) (exponent : Int) : Binary f :=
  if 0 ≤ exponent then round negative (digits * Nat.pow 10 exponent.toNat) 1
  else round negative digits (Nat.pow 10 (-exponent).toNat)

/-- The integer part, pressed into the range from `least` to `greatest`; zero for a NaN. -/
def toIntWithin (least greatest : Int) (x : Binary f) : Int :=
  match x.read with
  | .nan => 0
  | .infinite s => if s then least else greatest
  | .finite s m e =>
      let whole := if 0 ≤ e then m <<< e.toNat else m >>> (-e).toNat
      max least (min greatest (signed s whole))

/-- The nearest number of another format. A NaN keeps its sign and the leading bits of its
payload. -/
def convert (x : Binary f) : Binary g :=
  match x.read with
  | .nan =>
      let payload := x.magnitude % f.fieldWeight
      let moved :=
        if f.fractionBits ≤ g.fractionBits then payload <<< (g.fractionBits - f.fractionBits)
        else payload >>> (f.fractionBits - g.fractionBits)
      ofParts x.isNegative ((g.infinity + moved) ||| g.quietBit)
  | .infinite s => infinite s
  | .finite s m e => roundScaled s m e

end BulkSync.Binary
