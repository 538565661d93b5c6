import BulkSync.Message.Reducer
import BulkSync.Proofs.Binary.Order
import BulkSync.Proofs.Fault
import Mathlib.Logic.Basic

/-! # The least and the greatest message

Both reducers keep one of two elements, the one of lower rank (`Reducer.Keeps`), where the rank of an element is the
integer that it stands for, or its place in the order of binary numbers, turned around for the greatest message. So a
fold leads to an element of lowest rank among the messages and the identity (`Keeps.foldFrom_lowest`). It is a message
just if the identity is not below all of them, and no integer is beyond the identity of its kind. Of the binary numbers
one is: the identity for the least message is the greatest finite number, so that a node which is sent nothing but
the positive infinity is told a number that nobody sent (`extremes`). -/

namespace BulkSync

/-- The elements of a kind stand for the integers of a range, and are compared as integers. -/
structure Element.Ranges (M : Type) [Element M] [LE M] (integer : M → Int) : Prop where
  injective : Function.Injective integer
  atMost : ∀ a b : M, a ≤ b ↔ integer a ≤ integer b
  less : ∀ a b : M, Element.less a b = true ↔ integer a < integer b
  greatest : ∀ a : M, integer a ≤ integer Element.greatest
  least : ∀ a : M, integer Element.least ≤ integer a

namespace Element

theorem ranges_int32 : Ranges Int32 Int32.toInt where
  injective _ _ := Int32.toInt_inj.mp
  atMost _ _ := Int32.le_iff_toInt_le
  less _ _ := decide_eq_true_iff.trans Int32.lt_iff_toInt_lt
  greatest a := Int.le_of_lt_add_one a.toInt_lt
  least a := a.le_toInt

theorem ranges_uint32 : Ranges UInt32 fun a => a.toNat where
  injective _ _ same := UInt32.toNat_inj.mp (Int.ofNat.inj same)
  atMost _ _ := UInt32.le_iff_toNat_le.trans Int.ofNat_le.symm
  less _ _ := decide_eq_true_iff.trans (UInt32.lt_iff_toNat_lt.trans Int.ofNat_lt.symm)
  greatest a := Int.ofNat_le.mpr (Nat.le_of_lt_succ a.toNat_lt)
  least _ := Int.natCast_nonneg _

theorem ranges_int64 : Ranges Int64 Int64.toInt where
  injective _ _ := Int64.toInt_inj.mp
  atMost _ _ := Int64.le_iff_toInt_le
  less _ _ := decide_eq_true_iff.trans Int64.lt_iff_toInt_lt
  greatest a := Int.le_of_lt_add_one a.toInt_lt
  least a := a.le_toInt

theorem ranges_uint64 : Ranges UInt64 fun a => a.toNat where
  injective _ _ same := UInt64.toNat_inj.mp (Int.ofNat.inj same)
  atMost _ _ := UInt64.le_iff_toNat_le.trans Int.ofNat_le.symm
  less _ _ := decide_eq_true_iff.trans (UInt64.lt_iff_toNat_lt.trans Int.ofNat_lt.symm)
  greatest a := Int.ofNat_le.mpr (Nat.le_of_lt_succ a.toNat_lt)
  least _ := Int.natCast_nonneg _

end Element

namespace Reducer

variable {M : Type} {r : Reducer M} {number : M → Prop} {rank : M → Int} {messages : List M}

/-! ## Reducers that keep an element of lowest rank -/

/-- Of two numbers the one of lower rank is kept, and the value so far if there is none. -/
def Keeps (r : Reducer M) (number : M → Prop) (rank : M → Int) : Prop :=
  ∀ current message, number current → number message →
    r.reduce current message = .ok (if rank message < rank current then message else current)

theorem Keeps.foldFrom_lowest (keeps : r.Keeps number rank) {start : M} (started : number start)
    (numbers : ∀ message ∈ messages, number message) :
    ∃ result, r.foldFrom start messages = .ok result ∧ result ∈ start :: messages ∧
      ∀ message ∈ start :: messages, rank result ≤ rank message := by
  induction messages generalizing start with
  | nil => exact ⟨start, rfl, List.mem_singleton_self _, fun _ only => List.mem_singleton.mp only ▸ Int.le_refl _⟩
  | cons message messages inductionHypothesis =>
    rw [List.forall_mem_cons] at numbers
    have reduces := keeps start message started numbers.1
    -- what is kept is one of the two, and at most both
    obtain ⟨next, kept, isNumber, among, atMost, atMostToo⟩ : ∃ next, r.reduce start message = .ok next ∧
        number next ∧ (next = start ∨ next = message) ∧ rank next ≤ rank start ∧ rank next ≤ rank message := by
      rw [reduces]
      split
      · next lower => exact ⟨message, rfl, numbers.1, .inr rfl, Int.le_of_lt lower, Int.le_refl _⟩
      · next notLower => exact ⟨start, rfl, started, .inl rfl, Int.le_refl _, Int.not_lt.mp notLower⟩
    obtain ⟨result, folded, member, lowest⟩ := inductionHypothesis isNumber numbers.2
    rw [List.forall_mem_cons] at lowest
    refine ⟨result, bind_eq_ok_iff.mpr ⟨next, kept, folded⟩, ?_, ?_⟩
    · rcases among with rfl | rfl
      · exact List.cons_subset_cons _ (List.subset_cons_self ..) member
      · exact List.mem_cons_of_mem _ member
    · rw [List.forall_mem_cons, List.forall_mem_cons]
      exact ⟨Int.le_trans lowest.1 atMost, Int.le_trans lowest.1 atMostToo, lowest.2⟩

/-- The fold of messages is one of them, and related to all of them. -/
def Extracts (r : Reducer M) (below : M → M → Prop) (messages : List M) : Prop :=
  ∃ result, r.foldFrom r.identity messages = .ok result ∧ result ∈ messages ∧
    ∀ message ∈ messages, below result message

theorem extracts_congr {below other : M → M → Prop} (same : ∀ a ∈ messages, ∀ b ∈ messages, below a b ↔ other a b) :
    r.Extracts below messages ↔ r.Extracts other messages := by
  constructor
  · rintro ⟨result, folded, sent, all⟩
    exact ⟨result, folded, sent, fun message member => (same result sent message member).mp (all message member)⟩
  · rintro ⟨result, folded, sent, all⟩
    exact ⟨result, folded, sent, fun message member => (same result sent message member).mpr (all message member)⟩

theorem Keeps.foldFrom_unreached (keeps : r.Keeps number rank) (started : number r.identity)
    (numbers : ∀ message ∈ messages, number message)
    (beyond : ∀ message ∈ messages, rank r.identity < rank message) :
    r.foldFrom r.identity messages = .ok r.identity := by
  obtain ⟨result, folded, member, lowest⟩ := keeps.foldFrom_lowest started numbers
  rcases List.mem_cons.mp member with rfl | sent
  · exact folded
  · exact absurd (beyond result sent) (Int.not_lt.mpr (lowest _ (List.mem_cons_self ..)))

/-- If the identity is told by its rank, an element of lowest rank is found just if one of them is not beyond it. -/
theorem Keeps.extracts_iff (keeps : r.Keeps number rank) (started : number r.identity)
    (numbers : ∀ message ∈ messages, number message)
    (told : ∀ message ∈ messages, rank message = rank r.identity → message = r.identity) :
    r.Extracts (rank · ≤ rank ·) messages ↔ ∃ message ∈ messages, rank message ≤ rank r.identity := by
  obtain ⟨result, folded, member, lowest⟩ := keeps.foldFrom_lowest started numbers
  rw [List.forall_mem_cons] at lowest
  constructor
  · rintro ⟨again, foldedToo, sent, -⟩
    cases folded.symm.trans foldedToo
    exact ⟨result, sent, lowest.1⟩
  · rintro ⟨message, sent, reached⟩
    refine ⟨result, folded, ?_, lowest.2⟩
    rcases List.mem_cons.mp member with rfl | found
    · rw [← told message sent (Int.le_antisymm reached (lowest.2 message sent))]
      exact sent
    · exact found

/-! ## Integers -/

section Integers

variable [Element M] [LE M] {integer : M → Int} (ranges : Element.Ranges M integer)
include ranges

theorem keeps_min : (min : Reducer M).Keeps (fun _ => True) integer := fun current message _ _ =>
  congrArg Except.ok (if_congr (ranges.less message current) rfl rfl)

theorem keeps_max : (max : Reducer M).Keeps (fun _ => True) (-integer ·) := fun current message _ _ =>
  congrArg Except.ok (if_congr ((ranges.less current message).trans Int.neg_lt_neg_iff.symm) rfl rfl)

theorem extracts_min_iff : min.Extracts (· ≤ ·) messages ↔ messages ≠ [] := by
  rw [extracts_congr fun a _ b _ => ranges.atMost a b, (keeps_min ranges).extracts_iff trivial (fun _ _ => trivial)
    fun _ _ same => ranges.injective same]
  constructor
  · rintro ⟨message, sent, -⟩
    exact List.ne_nil_of_mem sent
  · intro some
    obtain ⟨message, sent⟩ := List.exists_mem_of_ne_nil messages some
    exact ⟨message, sent, ranges.greatest message⟩

theorem extracts_max_iff : max.Extracts (· ≥ ·) messages ↔ messages ≠ [] := by
  rw [extracts_congr fun a _ b _ => (ranges.atMost b a).trans Int.neg_le_neg_iff.symm,
    (keeps_max ranges).extracts_iff trivial (fun _ _ => trivial)
      fun _ _ same => ranges.injective (Int.neg_inj.mp same)]
  constructor
  · rintro ⟨message, sent, -⟩
    exact List.ne_nil_of_mem sent
  · intro some
    obtain ⟨message, sent⟩ := List.exists_mem_of_ne_nil messages some
    exact ⟨message, sent, Int.neg_le_neg (ranges.least message)⟩

end Integers

/-! ## Binary numbers -/

/-- The elements of a kind are the numbers of a format, and the range of the kind are the finite ones. -/
structure Measures (f : Format) [Element (Binary f)] : Prop where
  less : ∀ x y : Binary f, Element.less x y = x.less y
  greatest : (Element.greatest : Binary f) = Binary.greatestFinite
  least : (Element.least : Binary f) = Binary.leastFinite
  field : 1 < f.infinity

theorem measures_single : Measures .single := ⟨fun _ _ => rfl, rfl, rfl, by decide⟩

theorem measures_double : Measures .double := ⟨fun _ _ => rfl, rfl, rfl, by decide⟩

section Numbers

variable {f : Format} [Element (Binary f)] {numbers : List (Binary f)} (measures : Measures f)
  (areNumbers : ∀ x ∈ numbers, x.isNaN = false)
include measures

theorem keeps_min_number : (min : Reducer (Binary f)).Keeps (·.isNaN = false) Binary.rank :=
  fun current message number numberToo => congrArg Except.ok
    (if_congr (measures.less message current ▸ Binary.less_iff numberToo number) rfl rfl)

theorem keeps_max_number : (max : Reducer (Binary f)).Keeps (·.isNaN = false) (-Binary.rank ·) :=
  fun current message number numberToo => congrArg Except.ok
    (if_congr ((measures.less current message ▸ Binary.less_iff number numberToo).trans Int.neg_lt_neg_iff.symm)
      rfl rfl)

theorem number_identities : (min : Reducer (Binary f)).identity.isNaN = false ∧
    (max : Reducer (Binary f)).identity.isNaN = false := by
  rw [min, max, measures.greatest, measures.least]
  exact ⟨Binary.number_finite false, Binary.number_finite true⟩

theorem rank_identities : (min : Reducer (Binary f)).identity.rank = f.infinity - 1 ∧
    (max : Reducer (Binary f)).identity.rank = 1 - f.infinity := by
  rw [min, max, measures.greatest, measures.least]
  exact ⟨Binary.rank_greatestFinite measures.field, Binary.rank_leastFinite measures.field⟩

/-- Only one of the infinities is beyond each identity. -/
theorem beyond_identities {x : Binary f} (number : x.isNaN = false) :
    ((min : Reducer (Binary f)).identity.rank < x.rank ↔ x = .infinite false) ∧
    (x.rank < (max : Reducer (Binary f)).identity.rank ↔ x = .infinite true) := by
  rw [min, max, measures.greatest, measures.least]
  exact ⟨Binary.above_greatestFinite_iff measures.field number, Binary.below_leastFinite_iff measures.field number⟩

include areNumbers

theorem foldFrom_min_infinite (infinite : ∀ x ∈ numbers, x = .infinite false) :
    min.foldFrom min.identity numbers = .ok min.identity :=
  (keeps_min_number measures).foldFrom_unreached (number_identities measures).1 areNumbers fun x sent =>
    (beyond_identities measures (areNumbers x sent)).1.mpr (infinite x sent)

theorem foldFrom_max_infinite (infinite : ∀ x ∈ numbers, x = .infinite true) :
    max.foldFrom max.identity numbers = .ok max.identity :=
  (keeps_max_number measures).foldFrom_unreached (number_identities measures).2 areNumbers fun x sent =>
    Int.neg_lt_neg ((beyond_identities measures (areNumbers x sent)).2.mpr (infinite x sent))

theorem extracts_min_number_iff :
    min.Extracts (fun x y => x.atMost y = true) numbers ↔ ∃ x ∈ numbers, x ≠ .infinite false := by
  have field := measures.field
  have rank := (rank_identities measures).1
  rw [extracts_congr fun x sent y sentToo => Binary.atMost_iff_rank (areNumbers x sent) (areNumbers y sentToo),
    (keeps_min_number measures).extracts_iff (number_identities measures).1 areNumbers
      fun x _ same => Binary.ext_rank same (by omega)]
  exact exists_congr fun x => and_congr_right fun sent =>
    Int.not_lt.symm.trans (not_congr (beyond_identities measures (areNumbers x sent)).1)

theorem extracts_max_number_iff :
    max.Extracts (fun x y => y.atMost x = true) numbers ↔ ∃ x ∈ numbers, x ≠ .infinite true := by
  have field := measures.field
  have rank := (rank_identities measures).2
  rw [extracts_congr fun x sent y sentToo => (Binary.atMost_iff_rank (areNumbers y sentToo)
      (areNumbers x sent)).trans Int.neg_le_neg_iff.symm,
    (keeps_max_number measures).extracts_iff (number_identities measures).2 areNumbers
      fun x _ same => Binary.ext_rank (Int.neg_inj.mp same) (by omega)]
  exact exists_congr fun x => and_congr_right fun sent => Int.neg_le_neg_iff.trans
    (Int.not_lt.symm.trans (not_congr (beyond_identities measures (areNumbers x sent)).2))

end Numbers

/-! ## All kinds -/

/-- The least and the greatest of some messages are messages, if there are any. -/
structure FindsExtremes [Element M] [LE M] (messages : List M) : Prop where
  min : min.Extracts (· ≤ ·) messages ↔ messages ≠ []
  max : max.Extracts (· ≥ ·) messages ↔ messages ≠ []

/-- The least and the greatest of some numbers are among them, unless all of them are the infinity on the other side;
then they are the finite number next to it. -/
structure FindsFiniteExtremes {f : Format} [Element (Binary f)] (numbers : List (Binary f)) : Prop where
  min : min.Extracts (fun x y => x.atMost y = true) numbers ↔ ∃ x ∈ numbers, x ≠ .infinite false
  max : max.Extracts (fun x y => y.atMost x = true) numbers ↔ ∃ x ∈ numbers, x ≠ .infinite true
  minInfinite : (∀ x ∈ numbers, x = .infinite false) →
    Reducer.min.foldFrom Reducer.min.identity numbers = .ok .greatestFinite
  maxInfinite : (∀ x ∈ numbers, x = .infinite true) →
    Reducer.max.foldFrom Reducer.max.identity numbers = .ok .leastFinite

theorem findsExtremes [Element M] [LE M] {integer : M → Int} (ranges : Element.Ranges M integer) (messages : List M) :
    FindsExtremes messages := ⟨extracts_min_iff ranges, extracts_max_iff ranges⟩

theorem findsFiniteExtremes {f : Format} [Element (Binary f)] (measures : Measures f) {numbers : List (Binary f)}
    (areNumbers : ∀ x ∈ numbers, x.isNaN = false) : FindsFiniteExtremes numbers where
  min := extracts_min_number_iff measures areNumbers
  max := extracts_max_number_iff measures areNumbers
  minInfinite infinite := by
    rw [foldFrom_min_infinite measures areNumbers infinite, ← measures.greatest]
    rfl
  maxInfinite infinite := by
    rw [foldFrom_max_infinite measures areNumbers infinite, ← measures.least]
    rfl

/-- Of integers of each kind both reducers find an extreme one. So they do of binary numbers of each format, unless
all of these are the infinity that is beyond the identity. -/
theorem extremes (ints : List Int32) (words : List UInt32) (longs : List Int64) (longWords : List UInt64)
    (singles : List Binary32) (doubles : List Binary64) (singlesAre : ∀ x ∈ singles, x.isNaN = false)
    (doublesAre : ∀ x ∈ doubles, x.isNaN = false) :
    FindsExtremes ints ∧ FindsExtremes words ∧ FindsExtremes longs ∧ FindsExtremes longWords ∧
      FindsFiniteExtremes singles ∧ FindsFiniteExtremes doubles :=
  ⟨findsExtremes Element.ranges_int32 ints, findsExtremes Element.ranges_uint32 words,
    findsExtremes Element.ranges_int64 longs, findsExtremes Element.ranges_uint64 longWords,
    findsFiniteExtremes measures_single singlesAre, findsFiniteExtremes measures_double doublesAre⟩

/-- Of the two infinities the least is found, but of the positive one alone it is not. -/
theorem extremes_infinities :
    min.Extracts (· ≤ ·) [3, (-5 : Int32)] ∧ max.Extracts (· ≥ ·) [7, (9 : UInt64)] ∧
    min.Extracts (fun x y => x.atMost y = true) [.infinite false, (.infinite true : Binary32)] ∧
    min.foldFrom min.identity [(.infinite false : Binary64)] = .ok .greatestFinite := by
  obtain ⟨ints, -, -, longWords, singles, doubles⟩ := extremes [3, -5] [] [] [7, 9]
    [.infinite false, .infinite true] [.infinite false] (by decide) (by decide)
  exact ⟨ints.min.mpr (by decide), longWords.max.mpr (by decide), singles.min.mpr (by decide),
    doubles.minInfinite (by decide)⟩

/-- A node that is sent the positive infinity alone is told a number that nobody sent. -/
theorem greatestFinite_unsent : ∃ numbers : List Binary64, numbers ≠ [] ∧ (∀ x ∈ numbers, x.isNaN = false) ∧
    ¬min.Extracts (fun x y => x.atMost y = true) numbers := by
  refine ⟨[.infinite false], by decide, by decide, ?_⟩
  rintro ⟨result, folded, sent, -⟩
  have told : min.foldFrom min.identity [(.infinite false : Binary64)] = .ok .greatestFinite := by rfl
  rw [told] at folded
  cases folded
  exact absurd sent (by decide)

end Reducer
end BulkSync
