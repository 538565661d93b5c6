import BulkSync.Proofs.Vertex.Likeness

/-! # Computations that fold their messages

A computation may use its messages only through their fold: it is written in a context that has one call
more, which answers the fold of the messages and fails if the fold does (`FoldContext`). Such a computation
cannot tell messages with the same fold apart: its deeds are alike (`Deed.visit_folded`). -/

namespace BulkSync

variable {M : Type}

/-- The context of a node in a superstep that hands out nothing of the messages but their fold, which is
asked for by the call `none`. -/
abbrev FoldContext (M : Type) : Interface where
  Call := Option (VertexCall M)
  Answer
    | some call => (VertexContext M).Answer call
    | none => M

/-- The program that is supplied with the fold of its messages. -/
def Program.supply {α : Type} (folded : Except Fault M) :
    Program (FoldContext M) α → Program (VertexContext M) α
  | .done value => .done value
  | .fail fault => .fail fault
  | .ask (some call) next => .ask call fun answer => (next answer).supply folded
  | .ask none next =>
      match folded with
      | .ok value => (next value).supply folded
      | .error fault => .fail fault

/-- A computation that uses its messages only through their fold from the identity of a reducer. -/
def Computation.UsesFold (c : Computation M) (r : Reducer M) : Prop :=
  ∃ body : VertexView → Program (FoldContext M) Unit, ∀ view messages,
    c.compute view messages = (body view).supply (r.foldFrom r.identity messages)

/-- A program that succeeds although the fold fails has not asked for it. -/
theorem Program.supply_unasked {σ α : Type}
    {handle : (c : VertexCall M) → Attempt σ ((VertexContext M).Answer c)} {fault : Fault} (value : M)
    (p : Program (FoldContext M) α) {s t : σ} {result : α}
    (ran : ((p.supply (.error fault)).run handle).outcome s = (.ok result, t)) :
    ((p.supply (.ok value)).run handle).outcome s = (.ok result, t) := by
  induction p generalizing s with
  | done a => exact ran
  | fail fault => exact ran
  | ask call next inductionHypothesis =>
    cases call with
    | none => simp [supply] at ran
    | some call =>
      rw [supply, run_ask] at ran ⊢
      obtain ⟨answer, u, called, rest⟩ := Attempt.outcome_bind_ok ran
      exact (Attempt.outcome_bind_of_ok called).trans (inductionHypothesis answer rest)

namespace Deed

variable {γ : Type} [GraphView γ] [Element M] {g : γ} {c : Computation M} {schema : Schema}
  {superstep node : Nat} {messages others : Messages M} {d e : Deed M} {r : Reducer M} {value : M}

/-- What a node does with its messages, it does with others that have the same fold. -/
theorem compute_folded (uses : c.UsesFold r) (foldsToo : r.foldFrom r.identity others.toList = .ok value)
    (same : ∀ result, r.foldFrom r.identity messages.toList = .ok result → result = value)
    (ran : (compute g c schema superstep node messages).outcome d = (.ok (), e)) :
    ∃ next, (compute g c schema superstep node others).outcome d = (.ok (), next) ∧ e.Like next := by
  obtain ⟨body, supplied⟩ := uses
  obtain ⟨_, noted, first, rest⟩ := Attempt.outcome_bind_ok ran
  cases first
  rw [compute, Attempt.outcome_bind_of_ok (Attempt.outcome_change _ _), supplied, foldsToo]
  rw [supplied] at rest
  have start : (d.note (.compute superstep node messages)).Like (d.note (.compute superstep node others)) :=
    (Like.refl d).note rfl
  refine start.run _ ?_
  -- if the fold of the messages fails it has not been asked for, and is as good as the other one
  cases folds : r.foldFrom r.identity messages.toList with
  | ok result =>
    rw [folds, same result folds] at rest
    exact rest
  | error fault =>
    rw [folds] at rest
    exact Program.supply_unasked value _ rest

/-- A node that is handed other messages with the same fold has a like deed. -/
theorem visit_folded (uses : c.UsesFold r) (empty : others.isEmpty = messages.isEmpty)
    (foldsToo : r.foldFrom r.identity others.toList = .ok value)
    (same : ∀ result, r.foldFrom r.identity messages.toList = .ok result → result = value)
    (ran : (visit g c schema superstep node messages).outcome d = (.ok (), e)) :
    ∃ next, (visit g c schema superstep node others).outcome d = (.ok (), next) ∧ e.Like next := by
  obtain ⟨_, ready, first, second⟩ := Attempt.outcome_bind_ok ran
  obtain ⟨awake, woken, third, last⟩ := Attempt.outcome_bind_ok second
  have wakes : (wake others).outcome ready = (.ok awake, woken) := by
    rw [wake, empty]
    exact third
  rw [visit, Attempt.outcome_bind_of_ok first, Attempt.outcome_bind_of_ok wakes]
  cases awake with
  | true => exact compute_folded uses foldsToo same last
  | false =>
    cases last
    exact ⟨e, rfl, .refl e⟩

end Deed
end BulkSync
