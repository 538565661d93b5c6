import BulkSync.Proofs.Paged.Exchange

/-! # Both kinds of arrays agree

A shared array and a plain one that are made alike give the same replies to the same requests, and a copy of
a shared array has its elements. What a shared array can do beyond that, exchanging the word of a cell, is
said of any state that it can come into, at any index that it has (`Cells.Exchanging`). -/

namespace BulkSync

/-- What both kinds of arrays can be asked. -/
inductive Request (m : Type → Type) (α : Type) where
  | perform (operation : Operation m α)
  | isReleased

inductive Reply (α : Type) where
  | answer (answer : Answer α)
  | released (flag : Bool)
  deriving DecidableEq

namespace Storage

variable {m : Type → Type} [Monad m] {σ τ α : Type}

/-- The replies of one array to requests, one after the other. -/
def replies (s : Storage m σ α) (released : σ → Bool) : σ → List (Request m α) → m (List (Reply α))
  | _, [] => pure []
  | a, .perform operation :: rest => do
      let (answer, next) ← s.step a operation
      return .answer answer :: (← s.replies released next rest)
  | a, .isReleased :: rest => return .released (released a) :: (← s.replies released a rest)

theorem Refines.replies_eq [LawfulMonad m] {s : Storage m σ α} {t : Storage m τ α} {Holds : σ → Prop}
    {view : σ → τ} (refines : s.Refines t Holds view) {released : σ → Bool} {releasedToo : τ → Bool}
    (flags : ∀ a, releasedToo (view a) = released a) (requests : List (Request m α)) {a : σ}
    (holds : Holds a) : s.replies released a requests = t.replies releasedToo (view a) requests := by
  induction requests generalizing a with
  | nil => rfl
  | cons request rest inductionHypothesis =>
    cases request with
    | perform operation =>
      refine refines.step_bind holds operation _ _ fun answer next keeps => ?_
      simp only [inductionHypothesis keeps]
    | isReleased => simp only [replies, flags, inductionHypothesis holds]

end Storage

namespace Cells

variable {α : Type} [Element α]

/-- What is promised of the exchanges at an index: the words alone decide whether one happens, it changes
nothing but the cell at the index, and a sum that there is not leaves the array as it is. -/
structure Exchanging (a : Cells α) (index : Nat) : Prop where
  compareExchange : ∀ expected value, ∃ b, a.Stores index value b ∧
    a.compareExchange index expected value =
      .ok (a.peek index, if Element.sameWord (a.peek index) expected then b else a)
  compareSet : ∀ expected value, ∃ b, a.Stores index value b ∧
    a.compareSet index expected value = .ok (Element.sameWord (a.peek index) expected,
      if Element.sameWord (a.peek index) expected then b else a)
  add : ∀ delta sum, Element.add? (a.peek index) delta = .ok sum → ∃ b, a.Stores index sum b ∧
    (addAt index delta).outcome a = (.ok ⟨a.peek index, sum, 1⟩, b)
  overflow : ∀ delta fault, Element.add? (a.peek index) delta = .error fault →
    (addAt index delta).outcome a = (.error fault, a)

theorem Sound.exchanging {a : Cells α} (sound : a.Sound) {index : Nat} (inside : index < a.size) :
    a.Exchanging index where
  compareExchange expected value :=
    ⟨_, sound.stores_poke inside value, sound.compareExchange_eq inside expected value⟩
  compareSet expected value :=
    ⟨_, sound.stores_poke inside value, sound.compareSet_eq inside expected value⟩
  add delta sum added := ⟨_, sound.stores_poke inside sum, by rw [sound.addAt_eq inside, added]⟩
  overflow delta fault failed := by rw [sound.addAt_eq inside, failed]

/-- Both kinds of arrays, made alike, reply alike, and a shared one exchanges as it promises in every state;
integers are added exactly or not at all. -/
theorem agreement :
    (∀ {m : Type → Type} [Monad m] [LawfulMonad m] {α : Type} [Element α] (making : Making α)
      (requests : List (Request m α)),
      making.shared.map (fun a => (storage m α).replies released a requests) =
        making.plain.map fun a => (Paged.storage m α).replies Paged.released a requests) ∧
    (∀ {α : Type} [Element α] (a : Cells α), a.Reachable →
      a.toPaged.layout = a.layout ∧ a.toPaged.toList = a.toList ∧ ∀ index < a.size, a.Exchanging index) ∧
    Element.AddsExactly Int32 Int32.toInt (-2 ^ 31) (2 ^ 31 - 1) ∧
    Element.AddsExactly UInt32 (fun a => a.toNat) 0 (2 ^ 32 - 1) ∧
    Element.AddsExactly Int64 Int64.toInt (-2 ^ 63) (2 ^ 63 - 1) ∧
    Element.AddsExactly UInt64 (fun a => a.toNat) 0 (2 ^ 64 - 1) := by
  refine ⟨fun {m} _ _ {α} _ making requests => ?_, fun a reachable => ?_, Element.addsExactly_int32,
    Element.addsExactly_uint32, Element.addsExactly_int64, Element.addsExactly_uint64⟩
  · obtain ⟨same, sound⟩ := making.plain_eq
    have flags : ∀ a : Cells α, a.plain.released = a.released := fun _ => rfl
    rw [same]
    cases made : making.shared with
    | error fault => rfl
    | ok a => exact congrArg Except.ok ((refines_plain m α).replies_eq flags requests (sound a made))
  · obtain ⟨layout, _, elements⟩ := a.toPaged_elements
    exact ⟨layout, elements, fun index inside => reachable.sound.exchanging inside⟩

/-- Two pages of two slots are filled with zeros of either sign, enlarged, read and given up. -/
def zeros : List (Request (StateM (List Nat)) Binary64) :=
  [.perform (.assign fun index => do
      modify (· ++ [index])
      return Binary.ofParts (index == 1) 0),
    .perform (.get 1), .perform (.trySet 3 Element.one), .isReleased, .perform (.grow 5),
    .perform (.set 2 Element.one), .perform .toList, .perform .pageCount, .perform (.release inferInstance),
    .isReleased, .perform (.get 1), .perform (.grow 6)]

theorem agreement_zeros :
    ((Making.withShift 3 1).plain.map fun a =>
      (Paged.storage (StateM (List Nat)) Binary64).replies Paged.released a zeros).map (·.run []) =
      .ok ([.answer .done, .answer (.element (Binary.ofParts true 0)), .answer (.refused (.outOfBounds 3 3)),
        .released false, .answer .done, .answer .done,
        .answer (.elements [Binary.ofParts false 0, Binary.ofParts true 0, Element.one,
          Binary.ofParts false 0, Binary.ofParts false 0]),
        .answer (.count 3), .answer (.count 48), .released true, .answer (.failed (.access .released)),
        .answer (.failed (.access .released))], [0, 1, 2]) ∧
    (ofLayout 3 ⟨1⟩ : Cells Binary64).compareExchange 2 (Binary.ofParts true 0) Element.one =
      .ok (Binary.ofParts false 0, ofLayout 3 ⟨1⟩) ∧
    ∃ b, (ofLayout 3 ⟨1⟩ : Cells Binary64).Stores 2 Element.one b ∧
      (ofLayout 3 ⟨1⟩ : Cells Binary64).compareExchange 2 (Binary.ofParts false 0) Element.one =
        .ok (Binary.ofParts false 0, b) := by
  obtain ⟨replies, states, _⟩ := agreement
  have reachable : (ofLayout 3 ⟨1⟩ : Cells Binary64).Reachable :=
    .made (show (Making.withShift 3 1).shared = .ok (ofLayout 3 ⟨1⟩) from rfl)
  have exchanging := (states _ reachable).2.2 2 (by decide)
  refine ⟨?_, ?_, ?_⟩
  · rw [← replies]
    rfl
  · obtain ⟨b, _, kept⟩ := exchanging.compareExchange (Binary.ofParts true 0) Element.one
    exact kept
  · exact exchanging.compareExchange (Binary.ofParts false 0) Element.one

end Cells
end BulkSync
