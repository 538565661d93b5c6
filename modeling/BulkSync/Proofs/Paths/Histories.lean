import BulkSync.Proofs.Lockstep
import BulkSync.Proofs.Paths.Entries

/-! # Histories of a table of paths

A table is asked to change, and answers. A call is refused, finds the entry of its node better than its
own, or publishes its own entry as a whole (`Holds.answered`). So after any calls the entry of a node is the one
published for it last (`Holds.run_calls`), and the next call changes that node's entry or nothing at all
(`atomicity`). -/

namespace BulkSync.PathTable

inductive Call where
  | setSource (node : Nat)
  | tryRelax (node : Nat) (entry : Entry)
  | relax (node : Nat) (entry : Entry)
  | compareExchange (node : Nat) (expected : Binary64) (entry : Entry)

inductive Answer where
  | marked
  | relaxed (answer : Relaxation)
  | taken (flag : Bool)
  | exchanged (answer : Exchange)
  | failed (fault : Fault)
  deriving DecidableEq

/-- Whether an answer says that an entry has been published. -/
def Answer.published : Answer → Bool
  | .marked | .relaxed (.improved _) | .taken true | .exchanged (.success _) => true
  | _ => false

namespace Call

def node : Call → Nat
  | setSource node | tryRelax node _ | relax node _ | compareExchange node _ _ => node

/-- The entry that a call publishes, if any. -/
def entry : Call → Entry
  | setSource _ => .source
  | tryRelax _ entry | relax _ entry | compareExchange _ _ entry => entry

def steps : Call → Attempt PathTable Answer
  | setSource node => do markSource node; return .marked
  | tryRelax node entry => do return .relaxed (← offer node entry)
  | relax node entry => do return .taken (← improve node entry)
  | compareExchange node expected entry => do return .exchanged (← exchange node expected entry)

/-- A call that fails leaves the table to which its steps have come. -/
def onTable (call : Call) : StateM PathTable Answer := fun t =>
  match call.steps.outcome t with
  | (.ok answer, t) => (answer, t)
  | (.error fault, t) => (.failed fault, t)

/-! ## What a call should do -/

/-- Why a call is refused before it looks at an entry. -/
def refusal (nodes : Nat) (call : Call) : Option Fault :=
  if call.entry.hops < 0 then some (.negativeHops call.entry.hops.toInt)
  else if call.node < nodes then none
  else some (.access (.outOfBounds call.node nodes))

/-- Whether an entry of this distance is to be replaced. -/
def replaces (current : Binary64) : Call → Bool
  | setSource _ => true
  | tryRelax _ entry | relax _ entry => !current.atMost entry.distance
  | compareExchange _ expected _ => decide (current = expected)

/-- What is answered if an entry of this distance is replaced, or is not. -/
def answer (current : Binary64) (replaced : Bool) : Call → Answer
  | setSource _ => .marked
  | tryRelax _ _ => .relaxed (if replaced then .improved current else .unimproved current)
  | relax _ _ => .taken replaced
  | compareExchange _ _ _ => .exchanged (if replaced then .success current else .failed current)

/-- What a call should do with the entries of so many nodes. -/
def onEntries (nodes : Nat) (call : Call) : StateM (Nat → Entry) Answer := fun entries =>
  match call.refusal nodes with
  | some fault => (.failed fault, entries)
  | none =>
      let current := (entries call.node).distance
      let replaced := call.replaces current
      (call.answer current replaced,
        if replaced then Function.update entries call.node call.entry else entries)

theorem run_onEntries (nodes : Nat) (call : Call) (entries : Nat → Entry) :
    (call.onEntries nodes).run entries = match call.refusal nodes with
      | some fault => (.failed fault, entries)
      | none =>
          (call.answer (entries call.node).distance (call.replaces (entries call.node).distance),
            if call.replaces (entries call.node).distance then Function.update entries call.node call.entry
            else entries) := rfl

theorem published_answer (call : Call) (current : Binary64) :
    (call.answer current (call.replaces current)).published = call.replaces current := by
  cases call with
  | setSource node => rfl
  | tryRelax node entry | relax node entry | compareExchange node expected entry =>
    simp only [answer]
    generalize replaces current _ = replaced
    cases replaced <;> rfl

theorem refusal_eq_none {nodes : Nat} {call : Call} (allowed : call.refusal nodes = none) :
    0 ≤ call.entry.hops ∧ call.node < nodes := by
  rw [refusal] at allowed
  split at allowed
  · simp at allowed
  · next nonnegative =>
    split at allowed
    · next inside => exact ⟨Int64.not_lt.mp nonnegative, inside⟩
    · simp at allowed

end Call

namespace Call

variable {call : Call} {t after : PathTable}

theorem onTable_of_ok {answer : Answer} (ran : call.steps.outcome t = (.ok answer, after)) :
    call.onTable.run t = (answer, after) := by
  simp only [onTable, StateT.run, ran]

theorem onTable_of_error {fault : Fault} (ran : call.steps.outcome t = (.error fault, after)) :
    call.onTable.run t = (.failed fault, after) := by
  simp only [onTable, StateT.run, ran]

theorem steps_of_ok (offers : ∀ node, call ≠ .setSource node) {current : Binary64} {replaced : Bool}
    (ran : (replaceIf call.node (call.replaces ·) call.entry).outcome t = (.ok (some (replaced, current)), after)) :
    call.steps.outcome t = (.ok (call.answer current replaced), after) := by
  cases call with
  | setSource node => exact absurd rfl (offers node)
  | tryRelax node entry | relax node entry | compareExchange node expected entry =>
    simp only [Call.node, Call.entry, replaces] at ran
    simp only [steps, offer, improve, exchange, Attempt.outcome_bind, ran]
    cases replaced <;> rfl

theorem steps_of_error (offers : ∀ node, call ≠ .setSource node) {fault : Fault}
    (ran : (replaceIf call.node (call.replaces ·) call.entry).outcome t = (.error fault, after)) :
    call.steps.outcome t = (.error fault, after) := by
  cases call with
  | setSource node => exact absurd rfl (offers node)
  | tryRelax node entry | relax node entry | compareExchange node expected entry =>
    simp only [Call.node, Call.entry, replaces] at ran
    simp only [steps, offer, improve, exchange, Attempt.outcome_bind, ran]

end Call

/-! ## What a call does -/

namespace Holds

variable {nodes : Nat} {entries : Nat → Entry} {t : PathTable} {call : Call}

theorem call_refused (holds : Holds nodes entries t) {fault : Fault} (refused : call.refusal nodes = some fault) :
    call.onTable.run t = (.failed fault, t) := by
  apply Call.onTable_of_error
  rw [Call.refusal] at refused
  split at refused
  · next negative =>
    cases refused
    refine Call.steps_of_error (fun node source => ?_) (replaceIf_negative negative)
    subst source
    exact absurd negative (show ¬Entry.source.hops < 0 by decide)
  · next nonnegative =>
    split at refused
    · simp at refused
    · next outside =>
      cases refused
      have behind := Nat.not_lt.mp outside
      cases call with
      | setSource node =>
        have fails := holds.markSource_behind behind
        simp only [Call.steps, Attempt.outcome_bind, Call.node] at fails ⊢
        rw [fails]
      | tryRelax node entry | relax node entry | compareExchange node expected entry =>
        exact Call.steps_of_error (by simp) (holds.replaceIf_behind (Int64.not_lt.mp nonnegative) behind)

theorem call_kept (holds : Holds nodes entries t) (allowed : call.refusal nodes = none)
    (kept : call.replaces (entries call.node).distance = false) :
    call.onTable.run t = (call.answer (entries call.node).distance false, t) := by
  obtain ⟨nonnegative, inside⟩ := Call.refusal_eq_none allowed
  apply Call.onTable_of_ok
  refine Call.steps_of_ok (fun node source => ?_) (holds.replaceIf_kept nonnegative inside kept)
  subst source
  cases kept

theorem call_replaced (holds : Holds nodes entries t) (allowed : call.refusal nodes = none)
    (replaced : call.replaces (entries call.node).distance = true) : ∃ after,
      call.onTable.run t = (call.answer (entries call.node).distance true, after) ∧
        Holds nodes (Function.update entries call.node call.entry) after := by
  obtain ⟨nonnegative, inside⟩ := Call.refusal_eq_none allowed
  cases call with
  | setSource node =>
    obtain ⟨after, ran, still⟩ := holds.markSource_ok inside
    refine ⟨after, Call.onTable_of_ok ?_, still⟩
    simp only [Call.steps, Attempt.outcome_bind, Call.node] at ran ⊢
    rw [ran]
    rfl
  | tryRelax node entry | relax node entry | compareExchange node expected entry =>
    obtain ⟨after, ran, still⟩ : ∃ after, (replaceIf node (Call.replaces · _) entry).outcome t = _ ∧ _ :=
      holds.replaceIf_replaced nonnegative inside replaced
    exact ⟨after, Call.onTable_of_ok (Call.steps_of_ok (by simp) ran), still⟩

/-- A call does what it should, and unless it says that it has published an entry the table is as before. -/
theorem answered (holds : Holds nodes entries t) (call : Call) :
    ((call.onTable.run t).1 = ((call.onEntries nodes).run entries).1 ∧
      Holds nodes ((call.onEntries nodes).run entries).2 (call.onTable.run t).2) ∧
    ((call.onTable.run t).1.published = false → (call.onTable.run t).2 = t) := by
  rw [call.run_onEntries]
  cases refused : call.refusal nodes with
  | some fault =>
    rw [holds.call_refused refused]
    exact ⟨⟨rfl, holds⟩, fun _ => rfl⟩
  | none =>
    have published := call.published_answer (entries call.node).distance
    dsimp only
    cases replaced : call.replaces (entries call.node).distance with
    | false =>
      rw [holds.call_kept refused replaced]
      exact ⟨⟨rfl, holds⟩, fun _ => rfl⟩
    | true =>
      obtain ⟨after, ran, still⟩ := holds.call_replaced refused replaced
      rw [replaced] at published
      rw [ran]
      exact ⟨⟨rfl, still⟩, fun unpublished => by rw [published] at unpublished; cases unpublished⟩

end Holds

/-! ## What any calls do -/

/-- The entry that was published for a node last. -/
def lastPublished (node : Nat) (history : List (Call × Answer)) : Option Entry :=
  (history.filter fun (call, answer) => call.node == node && answer.published).getLast?.map (·.1.entry)

theorem lastPublished_cons (node : Nat) (call : Call) (answer : Answer) (history : List (Call × Answer)) :
    lastPublished node ((call, answer) :: history) = (lastPublished node history).or
      (if call.node = node ∧ answer.published = true then some call.entry else none) := by
  rw [lastPublished, List.filter_cons]
  by_cases here : call.node = node ∧ answer.published = true
  · simp only [here, beq_self_eq_true, Bool.and_self, if_true, List.getLast?_cons, lastPublished]
    cases (history.filter fun (call, answer) => call.node == node && answer.published).getLast? <;> rfl
  · have passed : (call.node == node && answer.published) = false := by simpa using here
    simp only [passed, here, Bool.false_eq_true, if_false, Option.or_none, lastPublished]

theorem Call.onEntries_entry (nodes : Nat) (call : Call) (entries : Nat → Entry) (node : Nat) :
    ((call.onEntries nodes).run entries).2 node =
      if call.node = node ∧ ((call.onEntries nodes).run entries).1.published = true then call.entry
      else entries node := by
  rw [run_onEntries]
  cases refused : call.refusal nodes with
  | some fault => simp [Answer.published]
  | none =>
    dsimp only
    rw [call.published_answer]
    by_cases here : call.node = node
    · subst here
      split <;> simp_all
    · split <;> simp [here, Function.update_of_ne (Ne.symm here)]

/-- The entries are those published last, by what the calls have answered. -/
theorem run_entries (nodes : Nat) (calls : List Call) (entries : Nat → Entry) (node : Nat) :
    ((calls.mapM (Call.onEntries nodes)).run entries).2 node =
      (lastPublished node (calls.zip ((calls.mapM (Call.onEntries nodes)).run entries).1)).getD (entries node) := by
  induction calls generalizing entries with
  | nil => rfl
  | cons call calls inductionHypothesis =>
    rw [Lockstep.run_mapM_cons]
    rw [inductionHypothesis, call.onEntries_entry, List.zip_cons_cons, lastPublished_cons]
    generalize lastPublished node _ = later
    cases later with
    | some entry => rfl
    | none => split <;> rfl

theorem Holds.answered_calls {nodes : Nat} {entries : Nat → Entry} {t : PathTable} (holds : Holds nodes entries t)
    (calls : List Call) :
    ((calls.mapM Call.onTable).run t).1 = ((calls.mapM (Call.onEntries nodes)).run entries).1 ∧
      Holds nodes ((calls.mapM (Call.onEntries nodes)).run entries).2 ((calls.mapM Call.onTable).run t).2 :=
  Lockstep.alike_mapM (fun call _ _ holds => (Holds.answered holds call).1) calls holds

theorem Holds.run_calls (nodes : Nat) (calls : List Call) : ∃ answers t,
    (calls.mapM Call.onTable).run (new nodes) = (answers, t) ∧ answers.length = calls.length ∧
      Holds nodes (fun node => (lastPublished node (calls.zip answers)).getD .unreached) t := by
  obtain ⟨same, holds⟩ := (holds_new nodes).answered_calls calls
  have entries := run_entries nodes calls fun _ => .unreached
  rw [← same] at entries
  exact ⟨_, _, rfl, Lockstep.length_mapM calls _, (funext entries) ▸ holds⟩

/-- The tables that any calls leave. -/
def Reachable (nodes : Nat) (t : PathTable) : Prop :=
  ∃ calls : List Call, ((calls.mapM Call.onTable).run (new nodes)).2 = t

theorem Reachable.holds {nodes : Nat} {t : PathTable} (reachable : Reachable nodes t) :
    ∃ entries, Holds nodes entries t := by
  obtain ⟨calls, rfl⟩ := reachable
  obtain ⟨answers, t, ran, -, holds⟩ := Holds.run_calls nodes calls
  exact ⟨_, by rwa [ran]⟩

/-- What can be relied on at any time: no node is locked; the next call fails only if it is refused; it changes
nothing unless it says so, and then only the entry of its node; an exchange goes by the bits of the distance. -/
structure Intact (nodes : Nat) (entries : Nat → Entry) (t : PathTable) : Prop where
  distance : ∀ node < nodes, t.distance node = .ok (entries node).distance
  predecessor : ∀ node < nodes, t.predecessor node = .ok (entries node).predecessor?
  hops : ∀ node < nodes, t.hopsTo node = .ok (some (entries node).hops)
  fails : ∀ (call : Call) (fault : Fault),
    (call.onTable.run t).1 = .failed fault ↔ call.refusal nodes = some fault
  unchanged : ∀ (call : Call) (answer : Answer) (after : PathTable),
    call.onTable.run t = (answer, after) → answer.published = false → after = t
  elsewhere : ∀ (call : Call) (answer : Answer) (after : PathTable), call.onTable.run t = (answer, after) →
    ∀ node < nodes, node ≠ call.node → after.distance node = t.distance node ∧
      after.predecessor node = t.predecessor node ∧ after.hopsTo node = t.hopsTo node
  exchange : ∀ node < nodes, ∀ (expected : Binary64) (entry : Entry), 0 ≤ entry.hops →
    ((Call.compareExchange node expected entry).onTable.run t).1 = .exchanged
      (if (entries node).distance.bits = expected.bits then .success (entries node).distance
        else .failed (entries node).distance)

namespace Holds

variable {nodes : Nat} {entries : Nat → Entry} {t : PathTable}

theorem fails_iff (holds : Holds nodes entries t) (call : Call) (fault : Fault) :
    (call.onTable.run t).1 = .failed fault ↔ call.refusal nodes = some fault := by
  cases refused : call.refusal nodes with
  | some reason =>
    rw [holds.call_refused refused]
    simp
  | none =>
    rw [(holds.answered call).1.1, call.run_onEntries, refused]
    cases call <;> simp [Call.answer]

theorem elsewhere (holds : Holds nodes entries t) (call : Call) {node : Nat} (inside : node < nodes)
    (distinct : node ≠ call.node) {answer : Answer} {after : PathTable}
    (ran : call.onTable.run t = (answer, after)) : after.distance node = t.distance node ∧
      after.predecessor node = t.predecessor node ∧ after.hopsTo node = t.hopsTo node := by
  have still := (holds.answered call).1.2
  have same : ((call.onEntries nodes).run entries).2 node = entries node := by
    rw [call.onEntries_entry, if_neg fun here => distinct here.1.symm]
  rw [ran] at still
  rw [still.distance_eq inside, still.predecessor_eq inside, still.hopsTo_eq inside, same, holds.distance_eq inside,
    holds.predecessor_eq inside, holds.hopsTo_eq inside]
  exact ⟨rfl, rfl, rfl⟩

theorem exchange_eq (holds : Holds nodes entries t) {node : Nat} (inside : node < nodes) (expected : Binary64)
    {entry : Entry} (nonnegative : 0 ≤ entry.hops) :
    ((Call.compareExchange node expected entry).onTable.run t).1 = .exchanged
      (if (entries node).distance.bits = expected.bits then .success (entries node).distance
        else .failed (entries node).distance) := by
  have allowed : (Call.compareExchange node expected entry).refusal nodes = none :=
    (if_neg (GuardedCells.not_neg nonnegative)).trans (if_pos inside)
  rw [(holds.answered _).1.1, Call.run_onEntries, allowed]
  simp only [Call.answer, Call.replaces, Call.node]
  by_cases same : (entries node).distance = expected
  · simp [same]
  · have bits : (entries node).distance.bits ≠ expected.bits := fun equal => same (congrArg Binary.mk equal)
    simp [same, bits]

theorem intact (holds : Holds nodes entries t) : Intact nodes entries t where
  distance _ inside := holds.distance_eq inside
  predecessor _ inside := holds.predecessor_eq inside
  hops _ inside := holds.hopsTo_eq inside
  fails := holds.fails_iff
  unchanged call answer after ran := by simpa [ran] using (holds.answered call).2
  elsewhere call _ _ ran _ inside distinct := holds.elsewhere call inside distinct ran
  exchange _ inside expected _ nonnegative := holds.exchange_eq inside expected nonnegative

end Holds

/-- After any calls each node has the entry that was published for it last, whole and unlocked. -/
theorem atomicity (nodes : Nat) (calls : List Call) : ∃ answers t,
    (calls.mapM Call.onTable).run (new nodes) = (answers, t) ∧ answers.length = calls.length ∧
      Intact nodes (fun node => (lastPublished node (calls.zip answers)).getD .unreached) t := by
  obtain ⟨answers, t, ran, length, holds⟩ := Holds.run_calls nodes calls
  exact ⟨answers, t, ran, length, holds.intact⟩

end BulkSync.PathTable
