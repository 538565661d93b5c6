import BulkSync.Proofs.Guarded.Locks
import BulkSync.Proofs.Lockstep
import Mathlib.Data.List.Perm.Basic

/-! # Cells under any number of users

Users lock cells, hold guards, let go of them or forget them, in any order. Whether a cell is locked depends on
the guards alone, and what it holds on what was published for it last: the users see what they would see with
a ledger of these two (`exclusion`). A user may act on a number that was seen in a cell long ago
(`Action.lockSeen`); so nothing depends on when a cell is read in front of an exchange. -/

namespace BulkSync.GuardedCells

/-- The guards that are held, and those that are forgotten and will never end. -/
structure Guards where
  held : List Guard
  forgotten : List Guard

namespace Guards

def outstanding (guards : Guards) : List Guard := guards.held ++ guards.forgotten

def add (guards : Guards) (guard : Guard) : Guards := { guards with held := guards.held ++ [guard] }

def without (guards : Guards) (place : Nat) : Guards :=
  { guards with held := guards.held.eraseIdx place }

def forget (guards : Guards) (place : Nat) (guard : Guard) : Guards :=
  { guards.without place with forgotten := guard :: guards.forgotten }

theorem perm_add (guards : Guards) (guard : Guard) :
    (guard :: guards.outstanding).Perm (guards.add guard).outstanding := by
  simp only [outstanding, add, List.append_assoc]
  exact List.perm_middle.symm

theorem perm_without {guards : Guards} {place : Nat} {guard : Guard}
    (found : guards.held[place]? = some guard) :
    guards.outstanding.Perm (guard :: (guards.without place).outstanding) := by
  obtain ⟨inside, rfl⟩ := List.getElem?_eq_some_iff.mp found
  exact (List.getElem_cons_eraseIdx_perm inside).symm.append_right guards.forgotten

theorem perm_forget {guards : Guards} {place : Nat} {guard : Guard}
    (found : guards.held[place]? = some guard) :
    guards.outstanding.Perm (guards.forget place guard).outstanding :=
  (perm_without found).trans List.perm_middle.symm

end Guards

/-! ## What users do and see -/

/-- What a user can do: look at a cell, try to lock one, also after having seen a number in it some time ago,
or part with the guard at a place among those that are held. To drop a guard is to unlock its cell. -/
inductive Action where
  | load (index : Nat)
  | isLocked (index : Nat)
  | tryLock (index : Nat)
  | lockSeen (index : Nat) (seen : Int64)
  | unlock (place : Nat)
  | unlockWith (place : Nat) (value : Int64)
  | forget (place : Nat)

inductive Reply where
  | number (number : Option Int64)
  | flag (flag : Bool)
  | guard (guard : Option Guard)
  | done
  | absent
  | failed (fault : Fault)
  deriving DecidableEq

def Reply.ofEnd : Except Fault Unit → Reply
  | .ok () => .done
  | .error fault => .failed fault

/-- Guarded cells together with the guards that there are for them. -/
structure Parties where
  cells : GuardedCells
  guards : Guards

/-- What should be known of guarded cells: the number last published for each, and the guards. -/
structure Ledger where
  published : Nat → Int64
  guards : Guards

namespace Parties

def look {α : Type} (p : Parties) (reply : α → Reply) : Except Fault α → Reply × Parties
  | .ok seen => (reply seen, p)
  | .error fault => (.failed fault, p)

def lock (p : Parties) : Except Fault (Option Guard × GuardedCells) → Reply × Parties
  | .ok (some guard, cells) => (.guard guard, ⟨cells, p.guards.add guard⟩)
  | .ok (none, cells) => (.guard none, ⟨cells, p.guards⟩)
  | .error fault => (.failed fault, p)

/-- What a user does with the guard at a place, if it is still held. -/
def part (p : Parties) (place : Nat) (further : Guard → Reply × Parties) : Reply × Parties :=
  match p.guards.held[place]? with
  | none => (.absent, p)
  | some guard => further guard

theorem look_snd {α : Type} (p : Parties) (reply : α → Reply) (seen : Except Fault α) :
    (p.look reply seen).2 = p := by cases seen <;> rfl

theorem lock_keeps {p : Parties} (Holds : Parties → Prop) (start : Holds p)
    {tried : Except Fault (Option Guard × GuardedCells)}
    (kept : ∀ guard cells guards, tried = .ok (guard, cells) →
      guards.forgotten = p.guards.forgotten → Holds ⟨cells, guards⟩) : Holds (p.lock tried).2 := by
  match tried with
  | .ok (some guard, cells) => exact kept _ cells _ rfl rfl
  | .ok (none, cells) => exact kept _ cells _ rfl rfl
  | .error _ => exact start

theorem part_keeps {p : Parties} (Holds : Parties → Prop) (start : Holds p) {place : Nat}
    {further : Guard → Reply × Parties}
    (kept : ∀ guard, p.guards.held[place]? = some guard → Holds (further guard).2) :
    Holds (p.part place further).2 := by
  rw [part]
  cases found : p.guards.held[place]? with
  | none => exact start
  | some guard => exact kept guard found

end Parties

namespace Ledger

def look (size : Nat) (l : Ledger) (index : Nat) (reply : Reply) : Reply × Ledger :=
  if index < size then (reply, l) else (.failed (.access (.outOfBounds index size)), l)

def locked (l : Ledger) (index : Nat) : Bool := guarded l.guards.outstanding index

def lock (size : Nat) (l : Ledger) (index : Nat) (seen : Int64) : Reply × Ledger :=
  if index < size then
    if l.locked index ∨ seen ≠ l.published index then (.guard none, l)
    else (.guard (some ⟨index, seen⟩), { l with guards := l.guards.add ⟨index, seen⟩ })
  else (.failed (.access (.outOfBounds index size)), l)

def part (l : Ledger) (place : Nat) (further : Guard → Reply × Ledger) : Reply × Ledger :=
  match l.guards.held[place]? with
  | none => (.absent, l)
  | some guard => further guard

end Ledger

namespace Action

def onCells : Action → StateM Parties Reply
  | load index => fun p => p.look .number (p.cells.load index)
  | isLocked index => fun p => p.look .flag (p.cells.isLocked index)
  | tryLock index => fun p => p.lock (p.cells.tryLock index)
  | lockSeen index seen => fun p => p.lock (p.cells.lockSeen index seen)
  | unlock place => fun p => p.part place fun guard =>
      (.done, ⟨p.cells.unlock guard, p.guards.without place⟩)
  | unlockWith place value => fun p => p.part place fun guard =>
      let (ended, cells) := (GuardedCells.unlockWith guard value).outcome p.cells
      (Reply.ofEnd ended, ⟨cells, p.guards.without place⟩)
  | forget place => fun p => p.part place fun guard => (.done, ⟨p.cells, p.guards.forget place guard⟩)

def onLedger (size : Nat) : Action → StateM Ledger Reply
  | load index => fun l =>
      l.look size index (.number (if l.locked index then none else some (l.published index)))
  | isLocked index => fun l => l.look size index (.flag (l.locked index))
  | tryLock index => fun l => l.lock size index (l.published index)
  | lockSeen index seen => fun l => if seen < 0 then (.guard none, l) else l.lock size index seen
  | unlock place => fun l => l.part place fun _ => (.done, { l with guards := l.guards.without place })
  | unlockWith place value => fun l => l.part place fun guard =>
      if value < 0 then (.failed .negativeGuarded, { l with guards := l.guards.without place })
      else
        (.done, { l with
          published := Function.update l.published guard.index value
          guards := l.guards.without place })
  | forget place => fun l => l.part place fun guard =>
      (.done, { l with guards := l.guards.forget place guard })

end Action

/-! ## Agreement -/

/-- The cells are kept as the ledger has it, and both know the same guards. -/
def Matches (size : Nat) (p : Parties) (l : Ledger) : Prop :=
  p.guards = l.guards ∧ Kept size l.published l.guards.outstanding p.cells

/-- The replies are the same, and the states match. -/
def Alike (size : Nat) (first : Reply × Parties) (second : Reply × Ledger) : Prop :=
  first.1 = second.1 ∧ Matches size first.2 second.2

namespace Matches

variable {size index : Nat} {p : Parties} {l : Ledger}

theorem look {α : Type} (start : Matches size p l) {seen : Except Fault α} {value : α} (reply : α → Reply)
    (inside : index < size → seen = .ok value)
    (behind : size ≤ index → seen = .error (.access (.outOfBounds index size))) :
    Alike size (p.look reply seen) (l.look size index (reply value)) := by
  rcases Nat.lt_or_ge index size with lower | higher
  · rw [inside lower, Ledger.look, if_pos lower]
    exact ⟨rfl, start⟩
  · rw [behind higher, Ledger.look, if_neg (Nat.not_lt.mpr higher)]
    exact ⟨rfl, start⟩

theorem lock (start : Matches size p l) {seen : Int64} {tried : Except Fault (Option Guard × GuardedCells)}
    (inside : index < size → tried = p.cells.lockSeen index seen)
    (behind : size ≤ index → tried = .error (.access (.outOfBounds index size))) :
    Alike size (p.lock tried) (l.lock size index seen) := by
  obtain ⟨same, kept⟩ := start
  rcases Nat.lt_or_ge index size with lower | higher
  · rw [inside lower, kept.lockSeen_eq lower, Ledger.lock, if_pos lower, Ledger.locked]
    by_cases refused : guarded l.guards.outstanding index ∨ seen ≠ l.published index
    · rw [if_pos refused, if_pos refused]
      exact ⟨rfl, same, kept⟩
    · rw [if_neg refused, if_neg refused]
      obtain ⟨unlocked, rfl⟩ : ¬guarded l.guards.outstanding index ∧ seen = l.published index := by
        simpa using refused
      have none := guarded_eq_false.mp (Bool.eq_false_iff.mpr unlocked)
      exact ⟨rfl, congrArg (Guards.add · _) same, (kept.lock lower none).perm (l.guards.perm_add _)⟩
  · rw [behind higher, Ledger.lock, if_neg (Nat.not_lt.mpr higher)]
    exact ⟨rfl, same, kept⟩

theorem part (start : Matches size p l) {place : Nat} {further : Guard → Reply × Parties}
    {furtherToo : Guard → Reply × Ledger}
    (each : ∀ guard, l.guards.held[place]? = some guard → Alike size (further guard) (furtherToo guard)) :
    Alike size (p.part place further) (l.part place furtherToo) := by
  rw [Parties.part, Ledger.part, start.1]
  cases found : l.guards.held[place]? with
  | none => exact ⟨rfl, start⟩
  | some guard => exact each guard found

end Matches

/-- One action is seen alike, and matching states stay so. -/
theorem Action.onCells_alike (size : Nat) (action : Action) (p : Parties) (l : Ledger)
    (start : Matches size p l) : Alike size (action.onCells.run p) ((action.onLedger size).run l) := by
  have ⟨same, kept⟩ := start
  cases action with
  | load index => exact start.look .number kept.load_eq kept.load_behind
  | isLocked index => exact start.look .flag kept.isLocked_eq kept.isLocked_behind
  | tryLock index => exact start.lock kept.tryLock_eq_lockSeen kept.tryLock_behind
  | lockSeen index seen =>
    change Alike size (p.lock (p.cells.lockSeen index seen))
      (if seen < 0 then (.guard none, l) else l.lock size index seen)
    by_cases negative : seen < 0
    · rw [GuardedCells.lockSeen, if_pos negative, if_pos negative]
      exact ⟨rfl, start⟩
    · rw [if_neg negative]
      exact start.lock (fun _ => rfl) fun behind => kept.lockSeen_behind behind negative
  | unlock place =>
    refine start.part fun guard found => ⟨rfl, congrArg (Guards.without · place) same, ?_⟩
    exact (kept.perm (Guards.perm_without found)).unlock
  | unlockWith place value =>
    refine start.part fun guard found => ?_
    have there := kept.perm (Guards.perm_without found)
    have guards := congrArg (Guards.without · place) same
    simp only [GuardedCells.unlockWith, Attempt.outcome_of]
    by_cases negative : value < 0
    -- a guard that is not disarmed yet puts the number back that was locked in
    · rw [if_pos negative, if_pos negative]
      exact ⟨rfl, guards, there.unlock⟩
    · rw [if_neg negative, if_neg negative]
      exact ⟨rfl, guards, there.release (Int64.not_lt.mp negative)⟩
  | forget place =>
    refine start.part fun guard found => ⟨rfl, congrArg (Guards.forget · place guard) same, ?_⟩
    exact kept.perm (Guards.perm_forget found)

/-! ## Single cells -/

/-- How a cell holds the number published for it: as it is if there is no guard for the cell, and complemented
if there is one, which is then the only one. -/
inductive Parties.Slot (p : Parties) (index : Nat) (published : Int64) : Prop where
  | unlocked (none : ∀ guard ∈ p.guards.outstanding, guard.index ≠ index)
      (nonnegative : 0 ≤ published) (raw : p.cells.raw index = .ok published)
  | locked (guard : Guard) (only : p.guards.outstanding.filter (·.index == index) = [guard])
      (value : guard.value = published) (nonnegative : 0 ≤ guard.value)
      (raw : p.cells.raw index = .ok (~~~guard.value))

theorem Matches.slot {size index : Nat} {p : Parties} {l : Ledger} (start : Matches size p l)
    (inside : index < size) : p.Slot index (l.published index) := by
  obtain ⟨same, kept⟩ := start
  have raw := kept.raw_eq inside
  have nonnegative := kept.nonnegative index inside
  cases held : guarded l.guards.outstanding index with
  | true =>
    obtain ⟨guard, member, rfl⟩ := guarded_eq_true.mp held
    obtain ⟨value, peek⟩ := kept.locked guard member
    exact .locked guard (same ▸ filter_index kept.distinct member) value (value ▸ nonnegative)
      (raw.trans (congrArg Except.ok peek))
  | false =>
    have none := guarded_eq_false.mp held
    exact .unlocked (same ▸ none) nonnegative (raw.trans (congrArg Except.ok (kept.free index inside none)))

/-- The cell that an action is about, if there is one. -/
def Action.cell? (p : Parties) : Action → Option Nat
  | load index | isLocked index | tryLock index | lockSeen index _ => some index
  | unlock place | unlockWith place _ | forget place => (p.guards.held[place]?).map Guard.index

theorem Matches.elsewhere {size other : Nat} {p : Parties} {l : Ledger} (start : Matches size p l)
    (action : Action) (distinct : action.cell? p ≠ some other) :
    (action.onCells.run p).2.cells.raw other = p.cells.raw other := by
  obtain ⟨_, kept⟩ := start
  -- what is parted with is the guard of another cell
  have apart : ∀ (place : Nat) (guard : Guard), p.guards.held[place]? = some guard →
      (p.guards.held[place]?).map Guard.index ≠ some other → guard.index ≠ other := by
    intro place guard found distinct
    simpa [found] using distinct
  cases action with
  | load index | isLocked index => exact congrArg (·.cells.raw other) (p.look_snd ..)
  | tryLock index =>
    refine Parties.lock_keeps (·.cells.raw other = p.cells.raw other) rfl fun guard cells _ tried _ => ?_
    rcases Nat.lt_or_ge index size with inside | behind
    · rw [kept.tryLock_eq_lockSeen inside] at tried
      exact kept.lockSeen_raw (fun same => distinct (congrArg some same)) tried
    · rw [kept.tryLock_behind behind] at tried
      cases tried
  | lockSeen index seen =>
    refine Parties.lock_keeps (·.cells.raw other = p.cells.raw other) rfl fun guard cells _ tried _ => ?_
    exact kept.lockSeen_raw (fun same => distinct (congrArg some same)) tried
  | unlock place =>
    refine Parties.part_keeps (·.cells.raw other = p.cells.raw other) rfl fun guard found => ?_
    exact raw_poke_ne p.cells (apart place guard found distinct) _
  | unlockWith place value =>
    refine Parties.part_keeps (·.cells.raw other = p.cells.raw other) rfl fun guard found => ?_
    simp only [GuardedCells.unlockWith, Attempt.outcome_of]
    split <;> exact raw_poke_ne p.cells (apart place guard found distinct) _
  | forget place => exact Parties.part_keeps (·.cells.raw other = p.cells.raw other) rfl fun _ _ => rfl

theorem Action.forgotten_mem {guard : Guard} (action : Action) (p : Parties)
    (forgotten : guard ∈ p.guards.forgotten) : guard ∈ (action.onCells.run p).2.guards.forgotten := by
  cases action with
  | load index | isLocked index => exact (p.look_snd ..).symm ▸ forgotten
  | tryLock index | lockSeen index seen =>
    exact Parties.lock_keeps (guard ∈ ·.guards.forgotten) forgotten fun _ _ _ _ same => same ▸ forgotten
  | unlock place | unlockWith place value =>
    exact Parties.part_keeps (guard ∈ ·.guards.forgotten) forgotten fun _ _ => forgotten
  | forget place =>
    exact Parties.part_keeps (guard ∈ ·.guards.forgotten) forgotten fun other _ =>
      List.mem_cons_of_mem other forgotten

/-- Nothing ever unlocks the cell of a guard that is forgotten. -/
theorem Matches.forever {size : Nat} {p : Parties} {l : Ledger} (start : Matches size p l) {guard : Guard}
    (forgotten : guard ∈ p.guards.forgotten) (later : List Action) :
    guard ∈ ((later.mapM Action.onCells).run p).2.guards.forgotten ∧
      ((later.mapM Action.onCells).run p).2.cells.raw guard.index = .ok (~~~guard.value) ∧
      ((later.mapM Action.onCells).run p).2.cells.load guard.index = .ok none := by
  -- the ledger goes on beside the cells, and so they are still kept by its guards
  have ⟨same, kept⟩ := (Lockstep.alike_mapM (Action.onCells_alike size) later start).2
  have still := Lockstep.keeps_mapM Action.forgotten_mem later forgotten
  generalize ((later.mapM Action.onCells).run p).2 = q at same kept still
  have member : guard ∈ ((later.mapM (Action.onLedger size)).run l).2.guards.outstanding := by
    rw [← same]
    exact List.mem_append_right _ still
  have inside := kept.inside guard member
  refine ⟨still, ?_, ?_⟩
  · rw [kept.raw_eq inside, (kept.locked guard member).2]
  · rw [kept.load_eq inside, guarded_eq_true.mpr ⟨guard, member, rfl⟩]
    rfl

/-- What can be relied on at any time: each cell is in the state that its guards put it in, and can be locked if
there is none for it; an action on one cell changes no other; a guard that is forgotten locks its cell for
ever. -/
structure Exclusive (size : Nat) (p : Parties) (l : Ledger) : Prop where
  guards : p.guards = l.guards
  inside : ∀ guard ∈ p.guards.outstanding, guard.index < size
  slot : ∀ index < size, p.Slot index (l.published index)
  tryLock : ∀ index < size, p.cells.tryLock index =
    .ok (if guarded p.guards.outstanding index then (none, p.cells)
      else (some ⟨index, l.published index⟩, ⟨p.cells.cells.poke index (~~~l.published index)⟩))
  elsewhere : ∀ (action : Action) (other : Nat), action.cell? p ≠ some other →
    (action.onCells.run p).2.cells.raw other = p.cells.raw other
  forever : ∀ guard ∈ p.guards.forgotten, ∀ (later : List Action) (q : Parties),
    ((later.mapM Action.onCells).run p).2 = q → guard ∈ q.guards.forgotten ∧
      q.cells.raw guard.index = .ok (~~~guard.value) ∧ q.cells.load guard.index = .ok none

theorem Matches.exclusive {size : Nat} {p : Parties} {l : Ledger} (start : Matches size p l) :
    Exclusive size p l where
  guards := start.1
  inside := start.1 ▸ start.2.inside
  slot _ inside := start.slot inside
  tryLock _ inside := start.1 ▸ start.2.tryLock_eq inside
  elsewhere action _ := start.elsewhere action
  forever _ forgotten later _ ran := ran ▸ start.forever forgotten later

/-- Whatever is done with cells that hold a number that is not negative, the users see what the ledger says. -/
theorem exclusion (size : Nat) {initial : Int64} (nonnegative : 0 ≤ initial) (actions : List Action) :
    ∃ g replies p l, new size initial = .ok g ∧
      (actions.mapM Action.onCells).run ⟨g, ⟨[], []⟩⟩ = (replies, p) ∧
      (actions.mapM (Action.onLedger size)).run ⟨fun _ => initial, ⟨[], []⟩⟩ = (replies, l) ∧
      Exclusive size p l := by
  have start : Matches size ⟨filled size initial, ⟨[], []⟩⟩ ⟨fun _ => initial, ⟨[], []⟩⟩ :=
    ⟨rfl, Kept.filled size nonnegative⟩
  obtain ⟨same, matching⟩ := Lockstep.alike_mapM (Action.onCells_alike size) actions start
  exact ⟨filled size initial, _, _, _, if_neg (not_neg nonnegative), rfl, Prod.ext same.symm rfl,
    matching.exclusive⟩

/-- Zero is locked and refused a negative successor, then replaced; the guard of another cell is forgotten. -/
def visit : List Action :=
  [.tryLock 0, .load 0, .lockSeen 0 0, .unlockWith 0 (-1), .lockSeen 0 5, .tryLock 0, .unlockWith 0 7, .load 0,
    .tryLock 1, .forget 0, .unlock 0, .tryLock 1, .isLocked 1, .tryLock 2]

theorem exclusion_visit :
    (0 : Int64) ≤ 0 ∧ ∃ g replies p, new 2 0 = .ok g ∧
      (visit.mapM Action.onCells).run ⟨g, ⟨[], []⟩⟩ = (replies, p) ∧
      replies = [.guard (some ⟨0, 0⟩), .number none, .guard none, .failed .negativeGuarded, .guard none,
        .guard (some ⟨0, 0⟩), .done, .number (some 7), .guard (some ⟨1, 0⟩), .done, .absent, .guard none,
        .flag true, .failed (.access (.outOfBounds 2 2))] ∧
      p.Slot 0 7 ∧ p.guards.forgotten = [⟨1, 0⟩] := by
  have zero : (0 : Int64) ≤ 0 := by decide
  obtain ⟨g, replies, p, l, made, ran, expected, exclusive⟩ := exclusion 2 zero visit
  obtain ⟨rfl, rfl⟩ := Prod.ext_iff.mp expected
  have seven : ((visit.mapM (Action.onLedger 2)).run ⟨fun _ => 0, ⟨[], []⟩⟩).2.published 0 = 7 := by
    decide +kernel
  have forgotten := congrArg Guards.forgotten exclusive.guards
  exact ⟨zero, g, _, p, made, ran, by decide +kernel, seven ▸ exclusive.slot 0 (by decide),
    forgotten.trans (by decide +kernel)⟩

end BulkSync.GuardedCells
