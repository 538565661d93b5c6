import Mathlib.Algebra.Group.Nat.Defs
import BulkSync.Binary.Format

/-! # The order of binary numbers

Comparison is a total preorder on what is not a NaN, and false where a NaN takes part. It compares ranks, and but
for the two zeros a number is told by its rank (`Binary.ext_rank`). The positive infinity is above all of it, and of
the two infinities it is the one that zero is below. -/

namespace BulkSync

theorem Format.infinity_lt_signWeight (f : Format) : f.infinity < f.signWeight := by
  have field : 2 ^ f.exponentBits - 1 < 2 ^ f.exponentBits := Nat.sub_one_lt (Nat.ne_of_gt (Nat.two_pow_pos _))
  simp only [infinity, signWeight, fieldWeight, Nat.one_shiftLeft, Nat.pow_add]
  exact Nat.mul_lt_mul_of_pos_right field (Nat.two_pow_pos _)

theorem Format.two_pow_width (f : Format) : 2 ^ f.width = 2 * f.signWeight := by
  simp only [width, signWeight, Nat.one_shiftLeft, Nat.add_assoc, Nat.pow_add, Nat.pow_one]

namespace Binary

variable {f : Format} {x y z : Binary f}

/-! ## Patterns -/

theorem toNat_bits (x : Binary f) : x.bits.toNat = (if x.isNegative then f.signWeight else 0) + x.magnitude := by
  have bound := x.bits.isLt
  rw [f.two_pow_width] at bound
  simp only [isNegative, magnitude, decide_eq_true_eq]
  split
  · next negative =>
    rw [Nat.mod_eq_sub_mod negative, Nat.mod_eq_of_lt (by omega)]
    omega
  · next positive =>
    rw [Nat.mod_eq_of_lt (by omega), Nat.zero_add]

theorem ext_parts (sign : x.isNegative = y.isNegative) (magnitude : x.magnitude = y.magnitude) : x = y := by
  have bits : x.bits = y.bits := BitVec.eq_of_toNat_eq (by rw [toNat_bits, toNat_bits, sign, magnitude])
  exact congrArg mk bits

theorem parts_ofParts (negative : Bool) {magnitude : Nat} (bound : magnitude < f.signWeight) :
    (ofParts negative magnitude : Binary f).isNegative = negative ∧
      (ofParts negative magnitude : Binary f).magnitude = magnitude := by
  have bits : (ofParts negative magnitude : Binary f).bits.toNat =
      (if negative then f.signWeight else 0) + magnitude := by
    rw [ofParts, BitVec.toNat_ofNat, f.two_pow_width]
    exact Nat.mod_eq_of_lt (by split <;> omega)
  rw [isNegative, Binary.magnitude, bits]
  cases negative
  · simp [Nat.mod_eq_of_lt bound, bound]
  · simp [Nat.mod_eq_of_lt bound]

/-! ## Comparison -/

theorem atMost_iff : x.atMost y = true ↔ x.isNaN = false ∧ y.isNaN = false ∧ x.rank ≤ y.rank := by
  simp [atMost, and_assoc]

theorem atMost_iff_rank (number : x.isNaN = false) (numberToo : y.isNaN = false) :
    x.atMost y = true ↔ x.rank ≤ y.rank :=
  atMost_iff.trans ⟨fun above => above.2.2, fun above => ⟨number, numberToo, above⟩⟩

theorem less_iff (number : x.isNaN = false) (numberToo : y.isNaN = false) : x.less y = true ↔ x.rank < y.rank := by
  rw [less, number, numberToo]
  exact decide_eq_true_iff

theorem atMost_trans (first : x.atMost y = true) (second : y.atMost z = true) : x.atMost z = true := by
  obtain ⟨number, _, below⟩ := atMost_iff.mp first
  obtain ⟨_, numberToo, belowToo⟩ := atMost_iff.mp second
  exact atMost_iff.mpr ⟨number, numberToo, Int.le_trans below belowToo⟩

theorem atMost_refl (number : x.isNaN = false) : x.atMost x = true :=
  atMost_iff.mpr ⟨number, number, Int.le_refl _⟩

/-- Of two numbers one is at most the other. -/
theorem atMost_of_not (number : x.isNaN = false) (numberToo : y.isNaN = false) (above : x.atMost y = false) :
    y.atMost x = true := by
  refine atMost_iff.mpr ⟨numberToo, number, ?_⟩
  have higher : ¬x.rank ≤ y.rank := fun below =>
    Bool.false_ne_true (above ▸ atMost_iff.mpr ⟨number, numberToo, below⟩)
  omega

theorem less_eq_not_atMost (number : x.isNaN = false) (numberToo : y.isNaN = false) : x.less y = !y.atMost x := by
  rw [Bool.eq_iff_iff, less_iff number numberToo, Bool.not_eq_true', Bool.eq_false_iff, Ne,
    atMost_iff_rank numberToo number]
  omega

theorem numbers_of_less (below : x.less y = true) : x.isNaN = false ∧ y.isNaN = false := by
  simp only [less, Bool.and_eq_true, Bool.not_eq_true'] at below
  exact below.1

theorem atMost_of_less (below : x.less y = true) : x.atMost y = true := by
  obtain ⟨number, numberToo⟩ := numbers_of_less below
  rw [less_iff number numberToo] at below
  exact (atMost_iff_rank number numberToo).mpr (Int.le_of_lt below)

theorem less_of_less_of_atMost (below : x.less y = true) (above : y.atMost z = true) : x.less z = true := by
  obtain ⟨number, numberToo⟩ := numbers_of_less below
  obtain ⟨_, last, ranks⟩ := atMost_iff.mp above
  rw [less_iff number numberToo] at below
  exact (less_iff number last).mpr (Int.lt_of_lt_of_le below ranks)

/-- Two numbers each of which is at most the other are the same, but for the sign of zero. -/
theorem sameNumber_of_atMost (below : x.atMost y = true) (above : y.atMost x = true) : x.sameNumber y = true := by
  obtain ⟨number, numberToo, ranks⟩ := atMost_iff.mp below
  obtain ⟨-, -, ranksToo⟩ := atMost_iff.mp above
  rw [sameNumber, number, numberToo]
  exact decide_eq_true (Int.le_antisymm ranks ranksToo)

/-! ## Ranks -/

theorem rank_ofParts (negative : Bool) {magnitude : Nat} (bound : magnitude < f.signWeight) :
    (ofParts negative magnitude : Binary f).rank = if negative then -(magnitude : Int) else magnitude := by
  obtain ⟨sign, size⟩ := parts_ofParts (f := f) negative bound
  rw [rank, sign, size]

theorem rank_infinite (negative : Bool) :
    (infinite negative : Binary f).rank = if negative then -(f.infinity : Int) else f.infinity :=
  rank_ofParts negative f.infinity_lt_signWeight

theorem rank_bounds (number : x.isNaN = false) : -(f.infinity : Int) ≤ x.rank ∧ x.rank ≤ f.infinity := by
  have bound : x.magnitude ≤ f.infinity := Nat.not_lt.mp (of_decide_eq_false number)
  rw [rank]
  split <;> omega

/-- But for zero there is one pattern of each rank. -/
theorem ext_rank (same : x.rank = y.rank) (nonzero : x.rank ≠ 0) : x = y := by
  rw [rank, rank] at same
  rw [rank] at nonzero
  refine ext_parts ?_ ?_
  · cases sign : x.isNegative <;> cases signToo : y.isNegative <;>
      simp only [sign, signToo, if_true, Bool.false_eq_true, if_false, reduceCtorEq] at same nonzero ⊢ <;> omega
  · split at same <;> split at same <;> omega

/-! ## Infinities -/

theorem eq_infinite (positive : x.isNegative = false) (infinite : x.isInfinite = true) :
    x = Binary.infinite false := by
  obtain ⟨sign, magnitude⟩ := parts_ofParts (f := f) false f.infinity_lt_signWeight
  exact ext_parts (positive.trans sign.symm) ((of_decide_eq_true infinite).trans magnitude.symm)

theorem positive_of_rank (above : 0 < x.rank) : x.isNegative = false := by
  rw [rank] at above
  split at above
  · omega
  · next positive => exact Bool.eq_false_iff.mpr positive

theorem rank_zero : (default : Binary f).rank = 0 := by
  have zero : (default : Binary f).magnitude = 0 := Nat.zero_mod _
  simp [rank, zero]

/-- Nothing but the positive infinity is infinite and not below zero. -/
theorem eq_infinite_of_nonnegative (field : 0 < f.infinity) (nonnegative : (default : Binary f).atMost x = true)
    (infinite : x.isInfinite = true) : x = Binary.infinite false := by
  refine eq_infinite ?_ infinite
  obtain ⟨_, _, above⟩ := atMost_iff.mp nonnegative
  rw [rank_zero] at above
  apply positive_of_rank
  have magnitude : x.magnitude = f.infinity := of_decide_eq_true infinite
  rw [rank, magnitude] at above ⊢
  split <;> simp_all

/-- Nothing is above the positive infinity. -/
theorem eq_infinite_of_atMost (field : 0 < f.infinity) (above : (Binary.infinite false : Binary f).atMost x = true) :
    x = Binary.infinite false := by
  obtain ⟨_, number, above⟩ := atMost_iff.mp above
  have bound := (rank_bounds number).2
  have rank : (Binary.infinite false : Binary f).rank = f.infinity := rank_infinite false
  exact ext_rank (by omega) (by omega)

/-! ## Numbers beyond the finite ones -/

theorem number_finite (negative : Bool) : (ofParts negative (f.infinity - 1) : Binary f).isNaN = false := by
  have bound := f.infinity_lt_signWeight
  rw [isNaN, (parts_ofParts (f := f) negative (by omega)).2]
  exact decide_eq_false (by omega)

theorem rank_greatestFinite (field : 1 < f.infinity) : (greatestFinite : Binary f).rank = f.infinity - 1 := by
  have bound := f.infinity_lt_signWeight
  have inside : f.infinity - 1 < f.signWeight := by omega
  have rank := rank_ofParts false inside
  simp only [greatestFinite, rank, Bool.false_eq_true, if_false]
  omega

theorem rank_leastFinite (field : 1 < f.infinity) : (leastFinite : Binary f).rank = 1 - f.infinity := by
  have bound := f.infinity_lt_signWeight
  have inside : f.infinity - 1 < f.signWeight := by omega
  have rank := rank_ofParts true inside
  simp only [leastFinite, rank, if_true]
  omega

/-- Only the positive infinity is above the greatest finite number. -/
theorem above_greatestFinite_iff (field : 1 < f.infinity) (number : x.isNaN = false) :
    (greatestFinite : Binary f).rank < x.rank ↔ x = infinite false := by
  have infinity : (infinite false : Binary f).rank = f.infinity := rank_infinite false
  have bound := (rank_bounds number).2
  rw [rank_greatestFinite field]
  constructor
  · intro above
    exact ext_rank (by omega) (by omega)
  · rintro rfl
    omega

/-- Only the negative infinity is below the least finite number. -/
theorem below_leastFinite_iff (field : 1 < f.infinity) (number : x.isNaN = false) :
    x.rank < (leastFinite : Binary f).rank ↔ x = infinite true := by
  have infinity : (infinite true : Binary f).rank = -(f.infinity : Int) := rank_infinite true
  have bound := (rank_bounds number).1
  rw [rank_leastFinite field]
  constructor
  · intro below
    exact ext_rank (by omega) (by omega)
  · rintro rfl
    omega

end Binary
end BulkSync
