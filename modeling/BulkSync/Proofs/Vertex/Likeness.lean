import BulkSync.Proofs.Vertex.Deed

/-! # Deeds that are alike

The same messages can be handed to a node in different ways: one by one, or reduced on their way. The
deeds of the node are then alike: they have the same numbers and votes and the same events, but for the
messages that an event of computing carries (`Deed.Like`). What a program does to one of two such deeds,
it does to the other (`Like.run`). -/

namespace BulkSync

variable {M : Type}

namespace Event

/-- The event without the messages that a node computes with. -/
def bare : Event M → Event M
  | .compute superstep node _ => .compute superstep node (.reduced none)
  | event => event

theorem letter?_bare (event : Event M) : event.bare.letter? = event.letter? := by cases event <;> rfl

end Event

namespace Deed

/-- Deeds that differ in nothing but the messages that their events carry. -/
structure Like (d e : Deed M) : Prop where
  row : e.row = d.row
  halted : e.halted = d.halted
  raised : e.raised = d.raised
  events : e.events.map Event.bare = d.events.map Event.bare

namespace Like

variable {d e f : Deed M}

theorem refl (d : Deed M) : d.Like d := ⟨rfl, rfl, rfl, rfl⟩

/-- What is sent is the same. -/
theorem letters (like : d.Like e) : e.letters = d.letters := by
  have bare : ∀ events : List (Event M),
      events.filterMap Event.letter? = (events.map Event.bare).filterMap Event.letter? := by
    intro events
    rw [List.filterMap_map]
    exact congrArg (List.filterMap · events) (funext fun event => (Event.letter?_bare event).symm)
  rw [Deed.letters, Deed.letters, bare, like.events, ← bare]

theorem note (like : d.Like e) {event other : Event M} (same : other.bare = event.bare) :
    (d.note event).Like (e.note other) :=
  ⟨like.row, like.halted, like.raised, by simp [Deed.note, like.events, same]⟩

theorem putWord (like : d.Like e) (index : Nat) (word : UInt64) :
    (d.putWord index word).Like (e.putWord index word) :=
  ⟨by simp [Deed.putWord, like.row], like.halted, like.raised, like.events⟩

section Calls

variable {γ : Type} [GraphView γ] {g : γ} {schema : Schema} {superstep node : Nat}

theorem write (like : d.Like e) {kind : PropertyKind} {key : String} {word : UInt64} {answer : Unit}
    (ran : (Deed.write schema kind key word).outcome d = (.ok answer, f)) :
    ∃ next, (Deed.write schema kind key word).outcome e = (.ok answer, next) ∧ f.Like next := by
  obtain ⟨index, place, rfl⟩ := write_ok ran
  refine ⟨e.putWord index word, ?_, like.putWord index word⟩
  simp [Deed.write, Attempt.outcome_replace, place, mapError_ok, Except.map]

theorem sends (like : d.Like e) (message : M) (targets : List Nat) {answer : Unit}
    (ran : (targets.forM fun target =>
      Attempt.change (Deed.note (.send superstep node target message))).outcome d = (.ok answer, f)) :
    ∃ next, (targets.forM fun target =>
        Attempt.change (Deed.note (.send superstep node target message))).outcome e =
      (.ok answer, next) ∧ f.Like next := by
  induction targets generalizing d e with
  | nil =>
    cases ran
    exact ⟨e, rfl, like⟩
  | cons target targets inductionHypothesis =>
    obtain ⟨_, middle, first, rest⟩ := Attempt.outcome_bind_ok ran
    cases first
    obtain ⟨next, finished, final⟩ := inductionHypothesis (like.note rfl) rest
    exact ⟨next, (Attempt.outcome_bind_of_ok (Attempt.outcome_change _ _)).trans finished, final⟩

theorem vertex (call : VertexCall M) (d e : Deed M) (answer : (VertexContext M).Answer call) (f : Deed M)
    (like : d.Like e) (ran : (Deed.vertex g schema superstep node call).outcome d = (.ok answer, f)) :
    ∃ next, (Deed.vertex g schema superstep node call).outcome e = (.ok answer, next) ∧ f.Like next := by
  cases call with
  | degree | neighbors more | weightedNeighbors more =>
    obtain ⟨found, rfl⟩ := Prod.mk.inj ran
    exact ⟨e, Prod.ext found rfl, like⟩
  | getLong key | getDouble key =>
    obtain ⟨found, rfl⟩ := Prod.mk.inj ran
    refine ⟨e, Prod.ext ?_ rfl, like⟩
    simp only [Deed.vertex, Deed.read, Attempt.outcome_inspect, like.row]
    exact found
  | setLong key value | setDouble key value => exact like.write ran
  | send target message =>
    simp only [Deed.vertex] at ran
    split at ran
    · next inside =>
      cases ran
      exact ⟨_, by simp [Deed.vertex, inside], like.note rfl⟩
    · simp at ran
  | sendToNeighbors message =>
    obtain ⟨targets, middle, first, rest⟩ := Attempt.outcome_bind_ok ran
    obtain ⟨found, rfl⟩ := Prod.mk.inj first
    obtain ⟨next, finished, final⟩ := like.sends message targets.toList rest
    have asked : (Attempt.lift (Handler.targets g node)).outcome e = (.ok targets, e) :=
      Prod.ext found rfl
    exact ⟨next, (Attempt.outcome_bind_of_ok asked).trans finished, final⟩
  | halt =>
    cases ran
    refine ⟨_, rfl, like.row, rfl, like.raised, ?_⟩
    simp [Deed.note, like.events]
  | raise =>
    cases ran
    exact ⟨_, rfl, like.row, like.halted, rfl, like.events⟩

/-- A program does the same to deeds that are alike. -/
theorem run (like : d.Like e) (p : Program (VertexContext M) Unit)
    (ran : (p.run (Deed.vertex g schema superstep node)).outcome d = (.ok (), f)) :
    ∃ next, (p.run (Deed.vertex g schema superstep node)).outcome e = (.ok (), next) ∧ f.Like next :=
  Program.run_simulates Like vertex p d e () f like ran

end Calls
end Like
end Deed
end BulkSync
