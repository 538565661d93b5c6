import BulkSync.Message.Reducer
import BulkSync.Proofs.Fault
import Mathlib.Data.List.Perm.Basic

/-! # Reducers that do not depend on the order of messages

A reducer may fail on some values and not on others, so that a fold can fail in one order and succeed in
another one. It is free of order if what it computes, where it does not fail, is an operation that could be
carried out in any order (`Reducer.OrderFree`): two folds of the same messages that both succeed then
agree (`OrderFree.foldFrom_perm`). Every associative and commutative reducer is of that kind
(`orderFree_of_laws`). So is the checked sum, which is the sum of integers as long as it does not overflow
(`orderFree_sum`), although it is not associative: one way of adding can overflow where another does not. -/

namespace BulkSync.Reducer

variable {M : Type} {r : Reducer M}

/-- What the reducer computes, where it does not fail, is an operation that takes messages in any order. -/
def OrderFree (r : Reducer M) : Prop :=
  ∃ (N : Type) (value : M → N) (join : N → M → N), Function.Injective value ∧ RightCommutative join ∧
    ∀ current message next, r.reduce current message = .ok next →
      value next = join (value current) message

theorem value_foldFrom {N : Type} {value : M → N} {join : N → M → N}
    (computes : ∀ current message next, r.reduce current message = .ok next →
      value next = join (value current) message) {start result : M} {messages : List M}
    (folded : r.foldFrom start messages = .ok result) :
    value result = messages.foldl join (value start) := by
  induction messages generalizing start with
  | nil =>
    cases folded
    rfl
  | cons message messages inductionHypothesis =>
    obtain ⟨next, reduced, rest⟩ := bind_eq_ok_iff.mp folded
    rw [List.foldl_cons, ← computes start message next reduced]
    exact inductionHypothesis rest

/-- Two folds of the same messages agree. -/
theorem OrderFree.foldFrom_perm (free : r.OrderFree) {start result other : M} {messages others : List M}
    (same : messages.Perm others) (folded : r.foldFrom start messages = .ok result)
    (foldedToo : r.foldFrom start others = .ok other) : result = other := by
  obtain ⟨N, value, join, injective, commutes, computes⟩ := free
  apply injective
  rw [value_foldFrom computes folded, value_foldFrom computes foldedToo, same.foldl_eq]

/-- An associative and commutative operation on values is free of order. -/
theorem orderFree_of_values {N : Type} (value : M → N) (injective : Function.Injective value)
    (join : N → N → N) [Std.Associative join] [Std.Commutative join]
    (computes : ∀ current message next, r.reduce current message = .ok next →
      value next = join (value current) (value message)) : r.OrderFree :=
  ⟨N, value, fun total message => join total (value message), injective,
    ⟨fun total _ _ => RightCommutative.right_comm total _ _⟩, computes⟩

/-- An associative and commutative reducer is free of order, also if it fails on some values. -/
theorem orderFree_of_laws
    (associative : ∀ a b c, (r.reduce a b >>= fun first => r.reduce first c) =
      (r.reduce b c >>= fun second => r.reduce a second))
    (commutative : ∀ a b, r.reduce a b = r.reduce b a) : r.OrderFree := by
  refine ⟨Option M, some, fun total message => total.bind fun current =>
    (r.reduce current message).toOption, fun _ _ => Option.some.inj, ⟨fun total a b => ?_⟩, ?_⟩
  · cases total with
    | none => rfl
    | some current =>
      -- two messages can be reduced to one first, and then their order does not matter
      have twice : ∀ first second, ((r.reduce current first).toOption.bind fun next =>
          (r.reduce next second).toOption) =
            (r.reduce first second >>= fun both => r.reduce current both).toOption := by
        intro first second
        rw [← associative current first second]
        cases r.reduce current first <;> rfl
      simp only [Option.bind_some]
      rw [twice, twice, commutative a b]
  · intro current message next reduced
    simp [reduced, Except.toOption]

/-- The sum of integers is free of order, although it fails when it overflows. -/
theorem orderFree_sum : (sum : Reducer Int64).OrderFree := by
  refine orderFree_of_values Int64.toInt (fun _ _ => Int64.toInt_inj.mp) (· + ·) ?_
  intro current message next summed
  have checked : Element.checkedSum Int64.minValue.toInt Int64.maxValue.toInt
      (current.toInt + message.toInt) (current + message) = .ok next := summed
  rw [Element.checkedSum] at checked
  split at checked
  · next inRange =>
    cases checked
    simp only [Int64.toInt_minValue, Int64.toInt_maxValue] at inRange
    rw [Int64.toInt_add]
    exact Int.bmod_eq_of_le (by omega) (by omega)
  · cases checked

end BulkSync.Reducer
