/-!
# Binary floating-point numbers

A number is a pattern of bits: a sign, an exponent field and a fraction, in a `Format`. A pattern is
read as an exact value (`Binary.read`), and an exact quotient of natural numbers is rounded to the
nearest number, a tie going to the even one (`Format.round`). Every operation of this library reads
its operands, computes exactly, and rounds once.

Without its sign a pattern is the rank of its value: greater magnitudes have greater patterns, the
infinity comes after every finite number, and what lies beyond the infinity is no number.
-/

namespace BulkSync

/-- How many bits the fraction and the exponent field of a binary number take. -/
structure Format where
  fractionBits : Nat
  exponentBits : Nat
  deriving DecidableEq, Repr

namespace Format

/-- The interchange format of 32 bits. -/
def single : Format := ⟨23, 8⟩

/-- The interchange format of 64 bits. -/
def double : Format := ⟨52, 11⟩

/-- All bits: the sign, the exponent field and the fraction. -/
abbrev width (f : Format) : Nat := 1 + f.exponentBits + f.fractionBits

/-- The weight of the sign in a pattern. -/
def signWeight (f : Format) : Nat := 1 <<< (f.exponentBits + f.fractionBits)

/-- The weight of the exponent field in a pattern, and of the bit above the fraction in a mantissa. -/
def fieldWeight (f : Format) : Nat := 1 <<< f.fractionBits

/-- The pattern of the positive infinity. -/
def infinity (f : Format) : Nat := (1 <<< f.exponentBits - 1) * f.fieldWeight

/-- The bit that tells a quiet pattern beyond the infinity from a signalling one. -/
def quietBit (f : Format) : Nat := 1 <<< (f.fractionBits - 1)

/-- The exponent of the last fraction bit of the least numbers. -/
def leastExponent (f : Format) : Int := 2 - (1 <<< (f.exponentBits - 1) : Nat) - f.fractionBits

/-! ## Rounding -/

/-- The greatest `e` with `2 ^ e ≤ num / den`, for positive `num` and `den`. -/
def leadingExponent (num den : Nat) : Int :=
  let guess : Int := (Nat.log2 num : Int) - (Nat.log2 den : Int)
  let reached : Bool :=
    if 0 ≤ guess then decide (den <<< guess.toNat ≤ num)
    else decide (den ≤ num <<< (-guess).toNat)
  if reached then guess else guess - 1

/-- The natural number nearest to `num / den`, the even one of two that are equally near. -/
def nearestEven (num den : Nat) : Nat :=
  let whole := num / den
  let rest := num % den
  if 2 * rest < den then whole
  else if den < 2 * rest then whole + 1
  else whole + whole % 2

/-- The pattern of the number nearest to `num / den`, without a sign. The mantissa is cut off at the
last fraction bit; when rounding carries it to the next power of two, adding it to the field gives
the next field and an empty fraction, as it should. -/
def roundMagnitude (f : Format) (num den : Nat) : Nat :=
  if num = 0 ∨ den = 0 then 0
  else
    let last := max (leadingExponent num den - f.fractionBits) f.leastExponent
    let mantissa :=
      if 0 ≤ last then nearestEven num (den <<< last.toNat)
      else nearestEven (num <<< (-last).toNat) den
    min ((last - f.leastExponent).toNat * f.fieldWeight + mantissa) f.infinity

end Format

/-- A binary floating-point number, as its pattern of bits. -/
structure Binary (f : Format) where
  bits : BitVec f.width
  deriving DecidableEq

/-- What a pattern stands for: no number, an infinity, or `± mantissa * 2 ^ exponent`. -/
inductive Reading where
  | nan
  | infinite (negative : Bool)
  | finite (negative : Bool) (mantissa : Nat) (exponent : Int)
  deriving DecidableEq

/-- The value with the opposite sign. -/
def Reading.negate : Reading → Reading
  | .nan => .nan
  | .infinite s => .infinite !s
  | .finite s m e => .finite (!s) m e

namespace Binary

variable {f : Format}

instance : Inhabited (Binary f) := ⟨⟨0⟩⟩

/-- The number with a sign and a pattern below it. -/
def ofParts (negative : Bool) (magnitude : Nat) : Binary f :=
  ⟨BitVec.ofNat f.width ((if negative then f.signWeight else 0) + magnitude)⟩

/-- Whether the sign bit is set. -/
def isNegative (x : Binary f) : Bool := decide (f.signWeight ≤ x.bits.toNat)

/-- The pattern without the sign. -/
def magnitude (x : Binary f) : Nat := x.bits.toNat % f.signWeight

/-- Whether the pattern stands for no number. -/
def isNaN (x : Binary f) : Bool := decide (f.infinity < x.magnitude)

/-- Whether the number is one of the two infinities. -/
def isInfinite (x : Binary f) : Bool := decide (x.magnitude = f.infinity)

/-- The value of a pattern. Numbers with an empty exponent field lack the leading bit of the
others. -/
def read (x : Binary f) : Reading :=
  if x.isNaN then .nan
  else if x.isInfinite then .infinite x.isNegative
  else
    let field := x.magnitude / f.fieldWeight
    let fraction := x.magnitude % f.fieldWeight
    if field = 0 then .finite x.isNegative fraction f.leastExponent
    else .finite x.isNegative (f.fieldWeight + fraction) (f.leastExponent + field - 1)

/-- The number nearest to `± num / den`. -/
def round (negative : Bool) (num den : Nat) : Binary f :=
  ofParts negative (f.roundMagnitude num den)

/-- The number nearest to `± mantissa * 2 ^ exponent`. -/
def roundScaled (negative : Bool) (mantissa : Nat) (exponent : Int) : Binary f :=
  if 0 ≤ exponent then round negative (mantissa <<< exponent.toNat) 1
  else round negative mantissa (1 <<< (-exponent).toNat)

/-! ## Order

A NaN is neither below nor equal to anything. The two zeros are equal. -/

/-- The rank of a number on the line: zero for both zeros, and the same distance from it for a
number and its negation. -/
def rank (x : Binary f) : Int := if x.isNegative then -(x.magnitude : Int) else x.magnitude

/-- Strictly below. -/
def less (x y : Binary f) : Bool := !x.isNaN && !y.isNaN && decide (x.rank < y.rank)

/-- Below or equal. -/
def atMost (x y : Binary f) : Bool := !x.isNaN && !y.isNaN && decide (x.rank ≤ y.rank)

/-- Equal as numbers. -/
def sameNumber (x y : Binary f) : Bool := !x.isNaN && !y.isNaN && decide (x.rank = y.rank)

/-! ## Distinguished numbers -/

/-- The infinities. -/
def infinite (negative : Bool) : Binary f := ofParts negative f.infinity

/-- The greatest finite number. -/
def greatestFinite : Binary f := ofParts false (f.infinity - 1)

/-- The least finite number. -/
def leastFinite : Binary f := ofParts true (f.infinity - 1)

/-- What an operation without a result yields: negative, quiet, with an empty payload. -/
def invalid : Binary f := ofParts true (f.infinity + f.quietBit)

/-- The quiet NaN that keeps the sign and payload of a NaN. -/
def quiet (x : Binary f) : Binary f := ofParts x.isNegative (x.magnitude ||| f.quietBit)

/-- The quiet positive NaN with an empty payload, the usual way to write "no number". -/
def nan : Binary f := ofParts false (f.infinity + f.quietBit)

end Binary

/-- Numbers of 32 bits. -/
abbrev Binary32 : Type := Binary Format.single

/-- Numbers of 64 bits. -/
abbrev Binary64 : Type := Binary Format.double

end BulkSync
