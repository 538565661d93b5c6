import BulkSync.Proofs.Paged.Exchange

/-! # Arrays that can be reached

A plain array is made for a size or copied from a shared one, and then operated on, any number of times
(`Paged.Reachable`). All operations keep an array sound and leave its layout as it is, and no maker allows pages
of more than `2 ^ 30` slots (`Reachable.invariant`). -/

namespace BulkSync

open Paged (Layout)

namespace Storage.Refines

variable {σ τ α : Type} {s : Storage Id σ α} {t : Storage Id τ α} {Holds : σ → Prop} {view : σ → τ}

/-- What has to hold for the view to be right is kept: the continuation asks whether it holds. -/
theorem step_keeps (refines : s.Refines t Holds view) {a : σ} (holds : Holds a) (operation : Operation Id α) :
    Holds (s.step a operation).2 := by
  have asked := refines.step_bind holds operation (fun stepped => (Holds stepped.2 : Id Prop))
    (fun _ => (True : Id Prop)) fun _ _ keeps => eq_true keeps
  exact asked.mpr trivial

end Storage.Refines

namespace Paged

variable {α : Type} [Inhabited α]

theorem withShift_eq_ok {size shift : Nat} {a : Paged α} (made : withShift size shift = .ok a) :
    shift ≤ Layout.greatestShift ∧ a = ofLayout size ⟨shift⟩ := by
  rcases Nat.lt_or_ge Layout.greatestShift shift with refused | allowed
  · rw [withShift, Layout.ofShift_refused refused] at made
    cases made
  · rw [withShift, Layout.ofShift_allowed allowed] at made
    have reserved : (Word.reserve ((⟨shift⟩ : Layout).pagesFor size) Layout.directoryEntry >>= fun _ =>
        pure (ofLayout size ⟨shift⟩)) = .ok a := made
    obtain ⟨_, _, last⟩ := bind_eq_ok_iff.mp reserved
    cases last
    exact ⟨allowed, rfl⟩

omit [Inhabited α] in
theorem assign_shape {a : Paged α} (sound : a.Sound) (f : Nat → α) :
    (a.assign f).Sound ∧ (a.assign f).layout = a.layout := by
  rw [assign_eq_pour sound.covers]
  exact ⟨sound.pour 0 _, (pour_shape a 0 _).1⟩

theorem usual_allowed : Layout.usual.shift ≤ Layout.greatestShift := by decide

end Paged

/-! ## Shared arrays -/

namespace Cells

variable {α : Type} [Element α]

theorem allowed_making {making : Making α} {a : Cells α} (made : making.shared = .ok a) :
    a.layout.shift ≤ Layout.greatestShift := by
  obtain ⟨same, _⟩ := making.plain_eq
  have plain : making.plain = .ok a.plain := by rw [same, made, Except.map]
  change a.plain.layout.shift ≤ _
  cases making with
  | new size =>
    rw [← Except.ok.inj plain]
    exact Paged.usual_allowed
  | withShift size shift =>
    obtain ⟨allowed, laidOut⟩ := Paged.withShift_eq_ok plain
    rw [laidOut]
    exact allowed
  | filled size value =>
    rw [← Except.ok.inj plain, Paged.filled, Paged.fill, Paged.new,
      (Paged.assign_shape (Paged.sound_ofLayout size .usual) _).2]
    exact Paged.usual_allowed

omit [Element α] in
theorem eq_of_checked {β : Type} {a : Cells α} {index : Nat} {value found : β}
    (ran : (a.check index >>= fun _ => pure value) = .ok found) : value = found := by
  obtain ⟨_, _, last⟩ := bind_eq_ok_iff.mp ran
  exact Except.ok.inj last

theorem layout_transformFrom (index : Nat) (f : α → Except Fault α) (script : List (Interlude α)) (current : α)
    (calls : Nat) (a : Cells α) : (transformFrom index f script current calls a).2.layout = a.layout := by
  induction script generalizing current calls a with
  | nil =>
    rw [transformFrom]
    cases f current <;> rfl
  | cons meanwhile script inductionHypothesis =>
    rw [transformFrom_cons]
    have disturbed : (a.disturb index meanwhile).layout = a.layout := by
      rw [disturb]
      cases meanwhile.stored <;> rfl
    cases f current with
    | error fault => exact disturbed
    | ok next =>
      dsimp only
      split
      · exact disturbed
      · exact (inductionHypothesis _ _ _).trans disturbed

/-- The layout never changes. -/
theorem Reachable.allowed {a : Cells α} (reachable : a.Reachable) : a.layout.shift ≤ Layout.greatestShift := by
  induction reachable with
  | made made => exact allowed_making made
  | write _ written inductionHypothesis =>
    rw [← eq_of_checked written]
    exact inductionHypothesis
  | @assign a before f inductionHypothesis =>
    have plain := (before.sound.assign f).2
    change (a.assign f).plain.layout.shift ≤ _
    rw [plain, (Paged.assign_shape before.sound.plain f).2]
    exact inductionHypothesis
  | @grow a b size before grown inductionHypothesis =>
    have plain : a.plain.grow size = .ok b.plain := by rw [(before.sound.grow size).1, grown, Except.map]
    change b.plain.layout.shift ≤ _
    rw [((before.sound.plain.grow_flat size).2 _ plain).2]
    exact inductionHypothesis
  | @release a before inductionHypothesis =>
    have same : a.release.2.layout = a.layout := by
      rw [Cells.release]
      split <;> rfl
    rw [same]
    exact inductionHypothesis
  | @exchange a b index expected value witness before exchanged inductionHypothesis =>
    rw [← (Prod.mk.inj (eq_of_checked exchanged)).2]
    split
    · exact inductionHypothesis
    · exact inductionHypothesis
  | @set a b index expected value same before exchanged inductionHypothesis =>
    rw [← (Prod.mk.inj (eq_of_checked exchanged)).2]
    split
    · exact inductionHypothesis
    · exact inductionHypothesis
  | @transform a before index f script inductionHypothesis =>
    rw [Cells.transformAmid, Attempt.outcome_of]
    cases a.check index with
    | error error => exact inductionHypothesis
    | ok =>
      dsimp only
      rw [layout_transformFrom]
      exact inductionHypothesis

end Cells

/-! ## Plain arrays -/

namespace Paged

variable {α : Type} [Inhabited α]

theorem Origin.make_sound {origin : Origin Id α} {a : Paged α} (made : origin.make = .ok a) :
    a.Sound ∧ a.layout.shift ≤ Layout.greatestShift := by
  cases origin with
  | new size =>
    cases made
    exact ⟨sound_ofLayout size .usual, usual_allowed⟩
  | withShift size shift =>
    cases built : (Paged.withShift size shift : Except Fault (Paged α)) with
    | error fault => simp [make, built, Except.map] at made
    | ok b =>
      obtain ⟨allowed, rfl⟩ := withShift_eq_ok built
      simp only [make, built, Except.map, Except.ok.injEq] at made
      cases made
      exact ⟨sound_ofLayout size ⟨shift⟩, allowed⟩
  | filled size value =>
    obtain ⟨sound, layout⟩ := assign_shape (sound_ofLayout (α := α) size .usual) fun _ => value
    cases made
    exact ⟨sound, Nat.le_trans (Nat.le_of_eq (congrArg Layout.shift layout)) usual_allowed⟩
  | ofFn size f =>
    obtain ⟨sound, layout⟩ := assign_shape (sound_ofLayout (α := α) size .usual) f
    cases made
    exact ⟨sound, Nat.le_trans (Nat.le_of_eq (congrArg Layout.shift layout)) usual_allowed⟩

/-- The arrays that users can bring about. To fill an array by a function that gives up on the way is to write
the elements up to there. -/
inductive Reachable : Paged α → Prop where
  | made {origin : Origin Id α} {a : Paged α} (made : origin.make = .ok a) : Reachable a
  | copied (kind : Element α) {cells : Cells α} (reachable : cells.Reachable) : Reachable cells.toPaged
  | operated {a : Paged α} (before : Reachable a) (operation : Operation Id α) :
      Reachable ((storage Id α).step a operation).2

theorem Reachable.invariant {a : Paged α} (reachable : a.Reachable) :
    a.Sound ∧ a.layout.shift ≤ Layout.greatestShift := by
  induction reachable with
  | made made => exact Origin.make_sound made
  | @copied kind cells reachable =>
    have fresh := @sound_ofLayout α kind.toInhabited cells.size cells.layout
    obtain ⟨sound, layout⟩ := assign_shape fresh cells.peek
    exact ⟨⟨sound.covers, sound.empty⟩, Nat.le_trans (Nat.le_of_eq (congrArg Layout.shift layout)) reachable.allowed⟩
  | operated before operation inductionHypothesis =>
    obtain ⟨sound, bound⟩ := inductionHypothesis
    obtain ⟨keeps, same⟩ := (refines_flat Id _).step_keeps ⟨sound, rfl⟩ operation
    exact ⟨keeps, Nat.le_trans (Nat.le_of_eq same) bound⟩

end Paged
end BulkSync
