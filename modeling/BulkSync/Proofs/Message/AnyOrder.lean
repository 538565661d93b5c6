import BulkSync.Proofs.Message.Extremes
import BulkSync.Proofs.Paged.Exchange
import Mathlib.Algebra.Ring.Int.Defs
import Mathlib.Data.List.Perm.Basic
import Mathlib.Algebra.BigOperators.Group.List.Basic

/-! # Folds of integers in any order

The least message, the greatest one and the number of messages are the same in whatever order the messages come. So is
the sum of integers without a sign, which fails in every order or in none. With a sign this is not so, since the
sums on the way can leave the range and come back into it (`sum_order_matters`). The order makes no difference just if
no order can fail, which is to say that what is gained and what is lost are both in the range, or if no order can
succeed, since the sum is not in the range (`anyOrder_sum_iff`). In between, some order succeeds: a loss is taken
whenever the sum so far is not negative, and a gain whenever it is (`exists_perm_staysWithin`). -/

namespace BulkSync

/-! ## Sums on the way -/

/-- Adding up from a total, all sums on the way are in a range. -/
def StaysWithin (low high : Int) : Int → List Int → Prop
  | _, [] => True
  | total, summand :: summands =>
    (low ≤ total + summand ∧ total + summand ≤ high) ∧ StaysWithin low high (total + summand) summands

/-- The sum of the positive summands. -/
def gains (summands : List Int) : Int := (summands.map (max 0 ·)).sum

/-- The sum of the negative summands. -/
def losses (summands : List Int) : Int := (summands.map (min 0 ·)).sum

section Ranges

variable {low high total : Int} {summands first second : List Int}

theorem gains_nonneg (summands : List Int) : 0 ≤ gains summands := by
  induction summands with
  | nil => exact Int.le_refl 0
  | cons summand summands inductionHypothesis =>
    simp only [gains, List.map_cons, List.sum_cons] at inductionHypothesis ⊢
    omega

theorem losses_nonpos (summands : List Int) : losses summands ≤ 0 := by
  induction summands with
  | nil => exact Int.le_refl 0
  | cons summand summands inductionHypothesis =>
    simp only [losses, List.map_cons, List.sum_cons] at inductionHypothesis ⊢
    omega

theorem gains_add_losses (summands : List Int) : gains summands + losses summands = summands.sum := by
  induction summands with
  | nil => rfl
  | cons summand summands inductionHypothesis =>
    simp only [gains, losses, List.map_cons, List.sum_cons] at inductionHypothesis ⊢
    omega

theorem gains_perm (same : first.Perm second) : gains first = gains second := (same.map _).sum_eq

theorem losses_perm (same : first.Perm second) : losses first = losses second := (same.map _).sum_eq

theorem gains_eq_zero (lost : ∀ summand ∈ summands, summand ≤ 0) : gains summands = 0 :=
  List.sum_eq_zero fun gain member => by
    obtain ⟨summand, listed, rfl⟩ := List.mem_map.mp member
    exact Int.max_eq_left (lost summand listed)

theorem losses_eq_zero (gained : ∀ summand ∈ summands, 0 ≤ summand) : losses summands = 0 :=
  List.sum_eq_zero fun loss member => by
    obtain ⟨summand, listed, rfl⟩ := List.mem_map.mp member
    exact Int.min_eq_left (gained summand listed)

/-- No order leaves the range if neither all gains nor all losses do. -/
theorem staysWithin_of_bounds (gained : total + gains summands ≤ high) (lost : low ≤ total + losses summands) :
    StaysWithin low high total summands := by
  induction summands generalizing total with
  | nil => trivial
  | cons summand summands inductionHypothesis =>
    have gain := gains_nonneg summands
    have loss := losses_nonpos summands
    simp only [gains, losses, List.map_cons, List.sum_cons] at gained lost gain loss
    refine ⟨by omega, inductionHypothesis ?_ ?_⟩
    · rw [gains]
      omega
    · rw [losses]
      omega

theorem StaysWithin.sum_prefix (start : low ≤ total ∧ total ≤ high)
    (stays : StaysWithin low high total (first ++ second)) : low ≤ total + first.sum ∧ total + first.sum ≤ high := by
  induction first generalizing total with
  | nil => simpa using start
  | cons summand first inductionHypothesis =>
    rw [List.sum_cons, ← Int.add_assoc]
    exact inductionHypothesis stays.1 stays.2

theorem StaysWithin.sum (start : low ≤ total ∧ total ≤ high) (stays : StaysWithin low high total summands) :
    low ≤ total + summands.sum ∧ total + summands.sum ≤ high := by
  rw [← List.append_nil summands] at stays
  exact stays.sum_prefix start

end Ranges

/-! ## Orders that fail and orders that succeed -/

section Orders

variable {M : Type} {integer : M → Int} {low high total : Int} {messages : List M}

theorem sum_map_filter (p : M → Bool) (messages : List M) : ((messages.filter p).map integer).sum =
    (messages.map fun message => if p message then integer message else 0).sum := by
  induction messages with
  | nil => rfl
  | cons message messages inductionHypothesis =>
    rw [List.filter_cons, List.map_cons, List.sum_cons, ← inductionHypothesis]
    split
    · rw [List.map_cons, List.sum_cons]
    · rw [Int.zero_add]

theorem gains_eq_sum_filter (messages : List M) :
    gains (messages.map integer) = ((messages.filter (0 ≤ integer ·)).map integer).sum := by
  rw [sum_map_filter, gains, List.map_map]
  refine congrArg List.sum (List.map_congr_left fun message _ => ?_)
  simp only [Function.comp, decide_eq_true_eq]
  split <;> omega

theorem losses_eq_sum_filter (messages : List M) :
    losses (messages.map integer) = ((messages.filter fun message => !decide (0 ≤ integer message)).map integer).sum := by
  rw [sum_map_filter, losses, List.map_map]
  refine congrArg List.sum (List.map_congr_left fun message _ => ?_)
  simp only [Function.comp, Bool.not_eq_true', decide_eq_false_iff_not]
  split <;> omega

/-- If all gains together, or all losses, leave the range, then an order in which they come first does. -/
theorem exists_perm_not_staysWithin (start : low ≤ 0 ∧ 0 ≤ high)
    (wide : ¬(gains (messages.map integer) ≤ high ∧ low ≤ losses (messages.map integer))) :
    ∃ others, messages.Perm others ∧ ¬StaysWithin low high 0 (others.map integer) := by
  have parted := List.filter_append_perm (0 ≤ integer ·) messages
  rw [gains_eq_sum_filter, losses_eq_sum_filter] at wide
  by_cases gained : ((messages.filter (0 ≤ integer ·)).map integer).sum ≤ high
  · refine ⟨_, (List.perm_append_comm.trans parted).symm, fun stays => wide ⟨gained, ?_⟩⟩
    rw [List.map_append] at stays
    have lost := (stays.sum_prefix start).1
    rwa [Int.zero_add] at lost
  · refine ⟨_, parted.symm, fun stays => gained ?_⟩
    rw [List.map_append] at stays
    have kept := (stays.sum_prefix start).2
    rwa [Int.zero_add] at kept

/-- If the sum is in the range, then some order never leaves it. -/
theorem exists_perm_staysWithin (inside : ∀ message, low ≤ integer message ∧ integer message ≤ high)
    (start : low ≤ total ∧ total ≤ high)
    (fits : low ≤ total + (messages.map integer).sum ∧ total + (messages.map integer).sum ≤ high) :
    ∃ others, messages.Perm others ∧ StaysWithin low high total (others.map integer) := by
  induction size : messages.length generalizing messages total with
  | zero =>
    obtain rfl := List.eq_nil_of_length_eq_zero size
    exact ⟨[], .refl _, trivial⟩
  | succ count inductionHypothesis =>
    -- a message that leads from the total towards zero comes first
    have goesOn : ∀ message ∈ messages, low ≤ total + integer message → total + integer message ≤ high →
        ∃ others, messages.Perm others ∧ StaysWithin low high total (others.map integer) := by
      intro message member above below
      obtain ⟨before, after, rfl⟩ := List.append_of_mem member
      have taken : (before ++ message :: after).Perm (message :: (before ++ after)) := List.perm_middle
      have sum := (taken.map integer).sum_eq
      have length := taken.length_eq
      rw [List.map_cons, List.sum_cons] at sum
      rw [size, List.length_cons] at length
      have rest : low ≤ total + integer message + ((before ++ after).map integer).sum ∧
          total + integer message + ((before ++ after).map integer).sum ≤ high := by omega
      obtain ⟨others, same, stays⟩ := inductionHypothesis ⟨above, below⟩ rest (by omega)
      exact ⟨message :: others, taken.trans (same.cons message), ⟨above, below⟩, stays⟩
    have sum := gains_add_losses (messages.map integer)
    by_cases sign : 0 ≤ total
    · by_cases lost : ∃ message ∈ messages, integer message ≤ 0
      · obtain ⟨message, member, nonpositive⟩ := lost
        have bounds := inside message
        exact goesOn message member (by omega) (by omega)
      · have none : losses (messages.map integer) = 0 := losses_eq_zero fun summand member => by
          obtain ⟨message, listed, rfl⟩ := List.mem_map.mp member
          exact Int.le_of_lt (Int.not_le.mp fun nonpositive => lost ⟨message, listed, nonpositive⟩)
        exact ⟨messages, .refl _, staysWithin_of_bounds (by omega) (by omega)⟩
    · by_cases gained : ∃ message ∈ messages, 0 ≤ integer message
      · obtain ⟨message, member, nonnegative⟩ := gained
        have bounds := inside message
        exact goesOn message member (by omega) (by omega)
      · have none : gains (messages.map integer) = 0 := gains_eq_zero fun summand member => by
          obtain ⟨message, listed, rfl⟩ := List.mem_map.mp member
          exact Int.le_of_lt (Int.not_le.mp fun nonnegative => gained ⟨message, listed, nonnegative⟩)
        exact ⟨messages, .refl _, staysWithin_of_bounds (by omega) (by omega)⟩

end Orders

/-! ## Folds -/

namespace Reducer

variable {M : Type} {r : Reducer M} {rank integer : M → Int} {low high : Int} {messages others : List M}

/-- The fold of the messages has the same outcome in any order: the same value, or the same fault. -/
def AnyOrder (r : Reducer M) (messages : List M) : Prop :=
  ∀ others, messages.Perm others → r.foldFrom r.identity messages = r.foldFrom r.identity others

theorem Keeps.anyOrder (keeps : r.Keeps (fun _ => True) rank) (injective : Function.Injective rank)
    (messages : List M) : r.AnyOrder messages := by
  intro others same
  have folds : ∀ messages, ∃ result, r.foldFrom r.identity messages = .ok result ∧
      result ∈ r.identity :: messages ∧ ∀ message ∈ r.identity :: messages, rank result ≤ rank message :=
    fun _ => keeps.foldFrom_lowest trivial fun _ _ => trivial
  obtain ⟨result, folded, member, lowest⟩ := folds messages
  obtain ⟨other, foldedToo, memberToo, lowestToo⟩ := folds others
  have same := same.cons r.identity
  have lowestTogether := Int.le_antisymm (lowest other (same.mem_iff.mpr memberToo))
    (lowestToo result (same.mem_iff.mp member))
  rw [folded, foldedToo, injective lowestTogether]

theorem foldFrom_count [Element M] (start : M) (same : messages.length = others.length) :
    count.foldFrom start messages = count.foldFrom start others := by
  induction messages generalizing start others with
  | nil => rw [List.eq_nil_of_length_eq_zero same.symm]
  | cons message messages inductionHypothesis =>
    cases others with
    | nil => cases same
    | cons other others =>
      rw [foldFrom, foldFrom, List.foldlM_cons, List.foldlM_cons]
      exact congrArg (Element.add? start Element.one >>= ·)
        (funext fun next => inductionHypothesis next (Nat.succ.inj same))

theorem anyOrder_count [Element M] (messages : List M) : (count : Reducer M).AnyOrder messages :=
  fun _ same => foldFrom_count _ same.length_eq

section Sums

variable [Element M] (adds : Element.AddsExactly M integer low high)
include adds

/-- The sum is exact if all sums on the way are in the range, and fails otherwise. -/
theorem foldFrom_sum (start : M) (messages : List M) :
    (StaysWithin low high (integer start) (messages.map integer) ∧ ∃ total,
      sum.foldFrom start messages = .ok total ∧ integer total = integer start + (messages.map integer).sum) ∨
    (¬StaysWithin low high (integer start) (messages.map integer) ∧
      sum.foldFrom start messages = .error .additionOverflow) := by
  induction messages generalizing start with
  | nil => exact .inl ⟨trivial, start, rfl, (Int.add_zero _).symm⟩
  | cons message messages inductionHypothesis =>
    have step := adds start message
    rw [List.map_cons, List.sum_cons, ← Int.add_assoc, foldFrom, List.foldlM_cons]
    split at step
    · next inRange =>
      obtain ⟨next, added, exact⟩ := step
      have reduced : sum.reduce start message = .ok next := added
      rw [reduced]
      rcases inductionHypothesis next with ⟨stays, total, folded, sums⟩ | ⟨leaves, fails⟩
      · rw [exact] at stays sums
        exact .inl ⟨⟨inRange, stays⟩, total, folded, sums⟩
      · rw [exact] at leaves
        exact .inr ⟨fun stays => leaves stays.2, fails⟩
    · next outOfRange =>
      have reduced : sum.reduce start message = .error .additionOverflow := step
      rw [reduced]
      exact .inr ⟨fun stays => outOfRange stays.1, rfl⟩

variable (injective : Function.Injective integer) (zero : integer (sum : Reducer M).identity = 0)
include zero

theorem foldFrom_sum_exact (messages : List M) :
    (∃ total, sum.foldFrom sum.identity messages = .ok total ∧ integer total = (messages.map integer).sum) ∨
      sum.foldFrom sum.identity messages = .error .additionOverflow := by
  have folded := foldFrom_sum adds sum.identity messages
  rw [zero, Int.zero_add] at folded
  exact folded.imp And.right And.right

include injective

/-- The outcome does not depend on the order just if no order fails or all of them do. -/
theorem anyOrder_sum_iff (inside : ∀ message, low ≤ integer message ∧ integer message ≤ high) (messages : List M) :
    (sum : Reducer M).AnyOrder messages ↔
      (gains (messages.map integer) ≤ high ∧ low ≤ losses (messages.map integer)) ∨
        ¬(low ≤ (messages.map integer).sum ∧ (messages.map integer).sum ≤ high) := by
  have start : low ≤ 0 ∧ 0 ≤ high := zero ▸ inside sum.identity
  have folds := foldFrom_sum adds sum.identity
  rw [zero] at folds
  simp only [Int.zero_add] at folds
  constructor
  · intro anyOrder
    by_contra neither
    obtain ⟨wide, fits⟩ := not_or.mp neither
    obtain ⟨rough, same, leaves⟩ := exists_perm_not_staysWithin start wide
    rw [Classical.not_not, ← Int.zero_add (messages.map integer).sum] at fits
    obtain ⟨gentle, sameToo, stays⟩ := exists_perm_staysWithin inside start fits
    have agree := (anyOrder rough same).symm.trans (anyOrder gentle sameToo)
    obtain ⟨-, fails⟩ := (folds rough).resolve_left fun stays => leaves stays.1
    obtain ⟨-, total, succeeds, -⟩ := (folds gentle).resolve_right fun leaves => leaves.1 stays
    rw [fails, succeeds] at agree
    cases agree
  · intro bounds others same
    have summands := same.map integer
    -- the two orders stay in the range both or neither
    have alike : StaysWithin low high 0 (messages.map integer) ↔ StaysWithin low high 0 (others.map integer) := by
      rcases bounds with ⟨gained, lost⟩ | outside
      · have gains := gains_perm summands
        have losses := losses_perm summands
        exact iff_of_true (staysWithin_of_bounds (by omega) (by omega)) (staysWithin_of_bounds (by omega) (by omega))
      · have total := summands.sum_eq
        refine iff_of_false (fun stays => outside ?_) (fun stays => outside ?_)
        · simpa using stays.sum start
        · simpa [total] using stays.sum start
    rcases folds messages with ⟨stays, result, folded, sums⟩ | ⟨leaves, fails⟩
    · obtain ⟨-, other, foldedToo, sumsToo⟩ := (folds others).resolve_right fun leaves => leaves.1 (alike.mp stays)
      rw [folded, foldedToo, injective (sums.trans (summands.sum_eq.trans sumsToo.symm))]
    · obtain ⟨-, failsToo⟩ := (folds others).resolve_left fun stays => leaves (alike.mpr stays.1)
      rw [fails, failsToo]

end Sums

/-! ## Integer kinds -/

/-- Messages can come in any order for all reducers but the sum, which is exact or overflows. -/
structure OrderLaws [Element M] (integer : M → Int) (low high : Int) (messages : List M) : Prop where
  min : (min : Reducer M).AnyOrder messages
  max : (max : Reducer M).AnyOrder messages
  count : (count : Reducer M).AnyOrder messages
  sum : (sum : Reducer M).AnyOrder messages ↔
    (gains (messages.map integer) ≤ high ∧ low ≤ losses (messages.map integer)) ∨
      ¬(low ≤ (messages.map integer).sum ∧ (messages.map integer).sum ≤ high)
  sum_exact : (∃ total, Reducer.sum.foldFrom Reducer.sum.identity messages = .ok total ∧
      integer total = (messages.map integer).sum) ∨
    Reducer.sum.foldFrom Reducer.sum.identity messages = .error .additionOverflow

theorem orderLaws [Element M] [LE M] (ranges : Element.Ranges M integer) (adds : Element.AddsExactly M integer low high)
    (zero : integer (sum : Reducer M).identity = 0)
    (inside : ∀ message, low ≤ integer message ∧ integer message ≤ high) (messages : List M) :
    OrderLaws integer low high messages where
  min := (keeps_min ranges).anyOrder ranges.injective messages
  max := (keeps_max ranges).anyOrder (fun _ _ same => ranges.injective (Int.neg_inj.mp same)) messages
  count := anyOrder_count messages
  sum := anyOrder_sum_iff adds ranges.injective zero inside messages
  sum_exact := foldFrom_sum_exact adds zero messages

/-- Where no element is negative, the sum can be taken in any order. -/
theorem OrderLaws.sum_anyOrder [Element M] (laws : OrderLaws integer 0 high messages) (nonnegative : ∀ a, 0 ≤ integer a) :
    (Reducer.sum : Reducer M).AnyOrder messages := by
  rw [laws.sum]
  have none : losses (messages.map integer) = 0 := losses_eq_zero fun summand member => by
    obtain ⟨message, -, rfl⟩ := List.mem_map.mp member
    exact nonnegative message
  have sum := gains_add_losses (messages.map integer)
  omega

theorem laws_int32 : ∀ messages, OrderLaws Int32.toInt (-2 ^ 31) (2 ^ 31 - 1) messages :=
  orderLaws Element.ranges_int32 Element.addsExactly_int32 rfl fun a => ⟨a.le_toInt, Int.le_sub_one_of_lt a.toInt_lt⟩

theorem laws_uint32 : ∀ messages, OrderLaws (fun a : UInt32 => a.toNat) 0 (2 ^ 32 - 1) messages :=
  orderLaws Element.ranges_uint32 Element.addsExactly_uint32 rfl fun a =>
    ⟨Int.natCast_nonneg _, Int.le_sub_one_of_lt (Int.ofNat_lt.mpr a.toNat_lt)⟩

theorem laws_int64 : ∀ messages, OrderLaws Int64.toInt (-2 ^ 63) (2 ^ 63 - 1) messages :=
  orderLaws Element.ranges_int64 Element.addsExactly_int64 rfl fun a => ⟨a.le_toInt, Int.le_sub_one_of_lt a.toInt_lt⟩

theorem laws_uint64 : ∀ messages, OrderLaws (fun a : UInt64 => a.toNat) 0 (2 ^ 64 - 1) messages :=
  orderLaws Element.ranges_uint64 Element.addsExactly_uint64 rfl fun a =>
    ⟨Int.natCast_nonneg _, Int.le_sub_one_of_lt (Int.ofNat_lt.mpr a.toNat_lt)⟩

/-- Of integers of each kind the order makes no difference, but for the sum of integers with a sign: there it makes
none just if no order fails or all of them do. -/
theorem any_order (ints : List Int32) (words : List UInt32) (longs : List Int64) (longWords : List UInt64) :
    OrderLaws Int32.toInt (-2 ^ 31) (2 ^ 31 - 1) ints ∧
    OrderLaws (fun a : UInt32 => a.toNat) 0 (2 ^ 32 - 1) words ∧ (sum : Reducer UInt32).AnyOrder words ∧
    OrderLaws Int64.toInt (-2 ^ 63) (2 ^ 63 - 1) longs ∧
    OrderLaws (fun a : UInt64 => a.toNat) 0 (2 ^ 64 - 1) longWords ∧ (sum : Reducer UInt64).AnyOrder longWords :=
  ⟨laws_int32 ints, laws_uint32 words, (laws_uint32 words).sum_anyOrder fun _ => Int.natCast_nonneg _,
    laws_int64 longs, laws_uint64 longWords, (laws_uint64 longWords).sum_anyOrder fun _ => Int.natCast_nonneg _⟩

/-- What is gained leaves the range of one kind and not of the other, although both sums are in range. -/
theorem any_order_greatest : (sum : Reducer Int32).AnyOrder [2147483647, -1, -1] ∧
    ¬(sum : Reducer Int64).AnyOrder [Int64.maxValue, 1, -1] ∧ (sum : Reducer UInt32).AnyOrder [4294967295, 1] := by
  obtain ⟨ints, -, words, longs, -⟩ := any_order [2147483647, -1, -1] [4294967295, 1] [Int64.maxValue, 1, -1] []
  rw [ints.sum, longs.sum]
  exact ⟨by decide, by decide, words⟩

theorem sum_order_matters : ∃ messages others : List Int64, messages.Perm others ∧
    sum.foldFrom sum.identity messages = .error .additionOverflow ∧
    sum.foldFrom sum.identity others = .ok Int64.maxValue := by
  refine ⟨[Int64.maxValue, 1, -1], [1, -1, Int64.maxValue], ?_, by rfl, by rfl⟩
  exact List.perm_append_comm_assoc [Int64.maxValue] [1, -1] []

end Reducer
end BulkSync
