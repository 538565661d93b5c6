import BulkSync.Proofs.Engine.Visit

/-! # What a visit leaves alone

No move of a visit takes the properties out of their schema, and none reports anything to the progress meter
(`Board.Framed`). So however it ends, a visit does nothing to a desk outside its node but to count the node
(`Job.visit_framed`), and the properties are a store of the same schema still. It is the task that reports
what it has counted, and the meter then counts on, modulo its width (`Counted`). -/

namespace BulkSync

variable {γ M : Type}

/-! ## Visits -/

/-- The properties on a board are a store of a schema. -/
def Board.Filed (schema : Schema) (nodes : Nat) (b : Board M) : Prop :=
  PropertyStore.Regular schema nodes b.store

/-- The board on a desk has such a store. -/
def Desk.Filed (schema : Schema) (nodes : Nat) (d : Desk M) : Prop := d.board.Filed schema nodes

/-- A board on which nothing has been reported since another one, and which has a store of the same schema. -/
structure Board.Framed (start b : Board M) : Prop where
  filed : ∀ {schema nodes}, start.Filed schema nodes → b.Filed schema nodes
  progress : b.progress = start.progress

/-- A desk with such a board at which no further node has been looked at. -/
structure Desk.Framed (start d : Desk M) : Prop where
  board : start.board.Framed d.board
  processed : d.processed = start.processed

theorem Board.Framed.refl (b : Board M) : b.Framed b := ⟨id, rfl⟩

theorem Desk.Framed.refl (d : Desk M) : d.Framed d := ⟨.refl d.board, rfl⟩

theorem Board.Framed.changes {start b c : Board M} (framed : start.Framed b) (change : b.Changes c) :
    start.Framed c := by
  cases change with
  | setLong wrote => exact ⟨fun filed => (framed.filed filed).writeLong_regular wrote, framed.progress⟩
  | setDouble wrote => exact ⟨fun filed => (framed.filed filed).writeDouble_regular wrote, framed.progress⟩
  | raise => exact ⟨framed.filed, framed.progress⟩

theorem Desk.Framed.moves [Element M] {superstep node : Nat} {start d e : Desk M} (framed : start.Framed d)
    (move : d.Moves superstep node e) : start.Framed e := by
  cases move with
  | changes change => exact ⟨framed.board.changes change, framed.processed⟩
  | _ => exact ⟨⟨framed.board.filed, framed.board.progress⟩, framed.processed⟩

/-- Apart from its node a visit looks at nothing further, and it reports nothing. -/
theorem Job.visit_framed [GraphView γ] [Element M] (job : Job γ M) (superstep node : Nat) (d : Desk M) :
    Desk.Framed { d with processed := d.processed + 1 } ((job.visit superstep node).outcome d).2 :=
  job.visit_keeps Desk.Framed.moves d (.refl _)

/-! ## Reports -/

/-- A meter, if there is one, has counted so many more units. If it has a volume, its width was enough for them. -/
structure Counted (amount : Nat) (before after : Option ProgressMeter) : Prop where
  none : before = none → after = none
  some : ∀ m, before = some m → m.done < Word.limit →
    after = some { m with done := (m.done + amount) % Word.limit } ∧ (m.volume ≠ 0 → m.done + amount < Word.limit)

namespace Counted

variable {first second : Nat} {before between after : Option ProgressMeter}

theorem zero (before : Option ProgressMeter) : Counted 0 before before where
  none := id
  some m here fits := by
    rw [Nat.add_zero, Nat.mod_eq_of_lt fits]
    exact ⟨here, fun _ => fits⟩

theorem trans (one : Counted first before between) (two : Counted second between after) :
    Counted (first + second) before after where
  none nothing := two.none (one.none nothing)
  some m here fits := by
    obtain ⟨counted, wide⟩ := one.some m here fits
    obtain ⟨countedToo, wideToo⟩ := two.some _ counted (Nat.mod_lt _ (by decide))
    rw [Nat.mod_add_mod, Nat.add_assoc] at countedToo
    refine ⟨countedToo, fun volume => ?_⟩
    have inside := wideToo volume
    rwa [Nat.mod_eq_of_lt (wide volume), Nat.add_assoc] at inside

end Counted

/-- A percentage is computed only of a count that fits the meter. -/
theorem ProgressMeter.percentage_fits {volume done amount : Nat} {answer : Option Nat} (some : volume ≠ 0)
    (ran : percentage volume done amount = .ok answer) : done + amount < Word.limit := by
  rw [percentage, if_neg some] at ran
  obtain ⟨after, added, -⟩ := bind_eq_ok_iff.mp ran
  rw [Word.add?] at added
  split at added
  · next fits => exact fits
  · cases added

theorem Board.logProgress_changes (amount : Nat) (b : Board M) :
    ∃ meter, ((logProgress amount).outcome b).2 = { b with progress := meter } := by
  rw [logProgress, Attempt.outcome_of]
  split
  · exact ⟨b.progress, rfl⟩
  · exact ⟨_, rfl⟩

theorem Board.logProgress_ok {amount : Nat} {b c : Board M} (ran : (logProgress amount).outcome b = (.ok (), c)) :
    ∃ meter, c = { b with progress := meter } ∧ Counted amount b.progress meter := by
  rw [logProgress, Attempt.outcome_of] at ran
  split at ran
  · next nothing =>
    cases ran
    refine ⟨b.progress, rfl, fun _ => nothing, fun m here => ?_⟩
    cases nothing.symm.trans here
  · next meter there =>
    obtain ⟨logged, rfl⟩ := Prod.mk.inj ran
    refine ⟨_, rfl, fun nothing => ?_, fun m here _ => ?_⟩
    · cases there.symm.trans nothing
    cases there.symm.trans here
    refine ⟨rfl, fun volume => ?_⟩
    cases computed : ProgressMeter.percentage meter.volume meter.done amount with
    | error fault => simp [computed, Except.map] at logged
    | ok answer => exact ProgressMeter.percentage_fits volume computed

end BulkSync
