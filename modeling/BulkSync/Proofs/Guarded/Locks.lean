import BulkSync.GuardedCells
import BulkSync.Proofs.Fault
import BulkSync.Proofs.Paged.Regular

/-! # Locks in the sign bit

A cell holds the number last published for it, or the complement of that number while there is a guard for
the cell (`Kept`). As no published number is negative, the sign tells which of the two it is (`Kept.peek_neg_iff`). So a
cell can be locked if there is no guard for it and not otherwise (`Kept.lockSeen_eq`), and a guard that
ends publishes a number again (`Kept.release`). -/

namespace BulkSync.GuardedCells

theorem complement_neg {number : Int64} (nonnegative : 0 ≤ number) : ~~~number < 0 := by
  have lower : 0 ≤ number.toInt := by simpa [Int64.le_iff_toInt_le] using nonnegative
  have upper : number.toInt < 2 ^ 63 := number.toInt_lt
  have value : (~~~number).toInt = -number.toInt - 1 := by
    rw [Int64.toInt_not]
    exact Int.bmod_eq_of_le (by omega) (by omega)
  have negative : -number.toInt - 1 < 0 := by omega
  simpa [Int64.lt_iff_toInt_lt, value] using negative

theorem not_neg {number : Int64} (nonnegative : 0 ≤ number) : ¬number < 0 := Int64.not_lt.mpr nonnegative

/-- Whether one of the guards is for a cell. -/
def guarded (guards : List Guard) (index : Nat) : Bool := guards.any fun guard => guard.index == index

theorem guarded_eq_true {guards : List Guard} {index : Nat} :
    guarded guards index = true ↔ ∃ guard ∈ guards, guard.index = index := by simp [guarded]

theorem guarded_eq_false {guards : List Guard} {index : Nat} :
    guarded guards index = false ↔ ∀ guard ∈ guards, guard.index ≠ index := by simp [guarded]

theorem filter_index {guards : List Guard} (distinct : (guards.map Guard.index).Nodup) {guard : Guard}
    (member : guard ∈ guards) : (guards.filter fun other => other.index == guard.index) = [guard] := by
  induction guards with
  | nil => cases member
  | cons head tail inductionHypothesis =>
    obtain ⟨apart, rest⟩ := List.nodup_cons.mp distinct
    cases member with
    | head =>
      have none : (tail.filter fun other => other.index == guard.index) = [] := by
        refine List.filter_eq_nil_iff.mpr fun other member same => apart ?_
        exact eq_of_beq same ▸ List.mem_map_of_mem member
      simp [none]
    | tail _ later =>
      have distinct : head.index ≠ guard.index := fun same => apart (same ▸ List.mem_map_of_mem later)
      simp [distinct, inductionHypothesis rest later]

/-- The cells while there are some guards: each holds the number published for it, complemented if one of
the guards is for the cell. No two are for one cell. -/
structure Kept (size : Nat) (published : Nat → Int64) (guards : List Guard) (g : GuardedCells) : Prop where
  cells : Cells.Regular size g.cells
  inside : ∀ guard ∈ guards, guard.index < size
  distinct : (guards.map Guard.index).Nodup
  nonnegative : ∀ index < size, 0 ≤ published index
  free : ∀ index < size, (∀ guard ∈ guards, guard.index ≠ index) → g.cells.peek index = published index
  locked : ∀ guard ∈ guards, guard.value = published guard.index ∧ g.cells.peek guard.index = ~~~guard.value

theorem raw_poke_ne (g : GuardedCells) {index other : Nat} (distinct : index ≠ other) (value : Int64) :
    raw ⟨g.cells.poke index value⟩ other = g.raw other := by
  rw [raw, Cells.read, Cells.peek_poke_ne _ _ distinct]
  rfl

namespace Kept

variable {size : Nat} {published : Nat → Int64} {guards rest : List Guard} {g : GuardedCells} {index : Nat}

theorem filled (size : Nat) {initial : Int64} (nonnegative : 0 ≤ initial) :
    Kept size (fun _ => initial) [] (filled size initial) where
  cells := (Cells.regular_new size).fill initial
  inside := by simp
  distinct := by simp
  nonnegative _ _ := nonnegative
  free _ inside _ := Cells.peek_filled inside
  locked := by simp

theorem perm (kept : Kept size published guards g) (same : guards.Perm rest) : Kept size published rest g where
  cells := kept.cells
  inside guard member := kept.inside guard (same.mem_iff.mpr member)
  distinct := (same.map Guard.index).nodup kept.distinct
  nonnegative := kept.nonnegative
  free index inside none := kept.free index inside fun guard member => none guard (same.mem_iff.mp member)
  locked guard member := kept.locked guard (same.mem_iff.mpr member)

/-! ## Locking and unlocking -/

theorem lock (kept : Kept size published guards g) (inside : index < size)
    (none : ∀ guard ∈ guards, guard.index ≠ index) :
    Kept size published (⟨index, published index⟩ :: guards) ⟨g.cells.poke index (~~~published index)⟩ where
  cells := kept.cells.pokeWord inside _
  inside := by simpa using ⟨inside, kept.inside⟩
  distinct := by simpa using ⟨none, kept.distinct⟩
  nonnegative := kept.nonnegative
  free other otherInside unguarded := by
    obtain ⟨distinct, others⟩ := List.forall_mem_cons.mp unguarded
    rw [Cells.peek_poke_ne _ _ distinct, kept.free other otherInside others]
  locked := by
    refine List.forall_mem_cons.mpr ⟨⟨rfl, kept.cells.peek_poke inside _⟩, fun guard member => ?_⟩
    rw [Cells.peek_poke_ne _ _ (none guard member).symm]
    exact kept.locked guard member

/-- The end of a guard publishes a number for its cell and changes no other one. -/
theorem release {guard : Guard} {value : Int64} (kept : Kept size published (guard :: rest) g)
    (nonnegative : 0 ≤ value) :
    Kept size (Function.update published guard.index value) rest ⟨g.cells.poke guard.index value⟩ := by
  obtain ⟨insideHere, inside⟩ := List.forall_mem_cons.mp kept.inside
  obtain ⟨_, locked⟩ := List.forall_mem_cons.mp kept.locked
  obtain ⟨others, distinct⟩ := List.nodup_cons.mp kept.distinct
  have apart : ∀ other ∈ rest, other.index ≠ guard.index := fun other member same =>
    others (same ▸ List.mem_map_of_mem member)
  refine ⟨kept.cells.pokeWord insideHere _, inside, distinct, ?_, ?_, ?_⟩
  · intro index indexInside
    by_cases here : index = guard.index
    · subst here
      simpa using nonnegative
    · simpa [here] using kept.nonnegative index indexInside
  · intro index indexInside unguarded
    by_cases here : index = guard.index
    · subst here
      simpa using kept.cells.peek_poke insideHere value
    · rw [Function.update_of_ne here, Cells.peek_poke_ne _ _ (Ne.symm here)]
      exact kept.free index indexInside (List.forall_mem_cons.mpr ⟨Ne.symm here, unguarded⟩)
  · intro other member
    rw [Function.update_of_ne (apart other member), Cells.peek_poke_ne _ _ (apart other member).symm]
    exact locked other member

theorem unlock {guard : Guard} (kept : Kept size published (guard :: rest) g) :
    Kept size published rest (g.unlock guard) := by
  obtain ⟨⟨value, _⟩, _⟩ := List.forall_mem_cons.mp kept.locked
  have inside := kept.inside guard (List.mem_cons_self ..)
  have released := kept.release (value ▸ kept.nonnegative guard.index inside)
  -- the number that was locked in is the one published
  rwa [value, Function.update_eq_self, ← value] at released

/-! ## Looking and trying -/

theorem raw_eq (kept : Kept size published guards g) (inside : index < size) :
    g.raw index = .ok (g.cells.peek index) := by
  rw [raw, kept.cells.read inside, mapError_ok]

theorem raw_behind (kept : Kept size published guards g) (behind : size ≤ index) :
    g.raw index = .error (.access (.outOfBounds index size)) := by
  rw [raw, kept.cells.read_behind behind, mapError_error]

/-- The sign tells whether there is a guard. -/
theorem peek_neg_iff (kept : Kept size published guards g) (inside : index < size) :
    g.cells.peek index < 0 ↔ guarded guards index = true := by
  cases held : guarded guards index with
  | true =>
    obtain ⟨guard, member, rfl⟩ := guarded_eq_true.mp held
    obtain ⟨value, peek⟩ := kept.locked guard member
    simpa [peek, value] using complement_neg (kept.nonnegative _ inside)
  | false =>
    rw [kept.free index inside (guarded_eq_false.mp held)]
    simpa using not_neg (kept.nonnegative _ inside)

theorem load_eq (kept : Kept size published guards g) (inside : index < size) :
    g.load index = .ok (if guarded guards index then none else some (published index)) := by
  rw [load, kept.raw_eq inside]
  simp only [bind, Except.bind, pure, Except.pure, kept.peek_neg_iff inside]
  split
  · rfl
  · next held => rw [kept.free index inside (guarded_eq_false.mp (Bool.eq_false_iff.mpr held))]

theorem isLocked_eq (kept : Kept size published guards g) (inside : index < size) :
    g.isLocked index = .ok (guarded guards index) := by
  rw [isLocked, kept.raw_eq inside]
  simp [bind, Except.bind, pure, Except.pure, kept.peek_neg_iff inside]

theorem load_behind (kept : Kept size published guards g) (behind : size ≤ index) :
    g.load index = .error (.access (.outOfBounds index size)) := by
  rw [load, kept.raw_behind behind]
  rfl

theorem isLocked_behind (kept : Kept size published guards g) (behind : size ≤ index) :
    g.isLocked index = .error (.access (.outOfBounds index size)) := by
  rw [isLocked, kept.raw_behind behind]
  rfl

/-- A cell is locked if it still holds the number that was seen in it, and no one has it locked. -/
theorem lockSeen_eq (kept : Kept size published guards g) (inside : index < size) (seen : Int64) :
    g.lockSeen index seen = .ok (if guarded guards index ∨ seen ≠ published index then (none, g)
      else (some ⟨index, seen⟩, ⟨g.cells.poke index (~~~seen)⟩)) := by
  have faithful : ∀ word : UInt64, Element.toWord (Element.ofWord word : Int64) = word := fun _ => rfl
  rw [lockSeen]
  by_cases negative : seen < 0
  -- a number that was seen locked is refused as one that is out of date
  · have distinct : seen ≠ published index := fun same =>
      not_neg (kept.nonnegative index inside) (same ▸ negative)
    simp [negative, distinct, pure, Except.pure]
  · rw [if_neg negative, kept.cells.compareExchange faithful inside]
    cases held : guarded guards index with
    | true =>
      -- the cell is negative by now, and the number seen was not
      have distinct : g.cells.peek index ≠ seen := fun same =>
        negative (same ▸ (kept.peek_neg_iff inside).mpr held)
      simp [distinct, bind, Except.bind, pure, Except.pure]
    | false =>
      rw [kept.free index inside (guarded_eq_false.mp held)]
      by_cases same : published index = seen
      · simp [same, bind, Except.bind, pure, Except.pure]
      · simp [same, Ne.symm same, bind, Except.bind, pure, Except.pure]

theorem lockSeen_behind (kept : Kept size published guards g) (behind : size ≤ index) {seen : Int64}
    (nonnegative : ¬seen < 0) : g.lockSeen index seen = .error (.access (.outOfBounds index size)) := by
  rw [lockSeen, if_neg nonnegative, kept.cells.compareExchange_behind behind]
  rfl

theorem lockSeen_raw (kept : Kept size published guards g) {other : Nat} (distinct : index ≠ other)
    {seen : Int64} {guard : Option Guard} {h : GuardedCells} (tried : g.lockSeen index seen = .ok (guard, h)) :
    h.raw other = g.raw other := by
  by_cases negative : seen < 0
  · rw [lockSeen, if_pos negative] at tried
    cases tried
    rfl
  · rcases Nat.lt_or_ge index size with inside | behind
    · rw [kept.lockSeen_eq inside] at tried
      split at tried
      · cases tried
        rfl
      · cases tried
        exact raw_poke_ne g distinct _
    · rw [kept.lockSeen_behind behind negative] at tried
      cases tried

/-- Nothing comes between a try and the look in front of it. -/
theorem tryLock_eq_lockSeen (kept : Kept size published guards g) (inside : index < size) :
    g.tryLock index = g.lockSeen index (published index) := by
  rw [tryLock, kept.raw_eq inside]
  change g.lockSeen index (g.cells.peek index) = _
  cases held : guarded guards index with
  | true => simp [kept.lockSeen_eq inside, held]
  | false => rw [kept.free index inside (guarded_eq_false.mp held)]

theorem tryLock_eq (kept : Kept size published guards g) (inside : index < size) :
    g.tryLock index = .ok (if guarded guards index then (none, g)
      else (some ⟨index, published index⟩, ⟨g.cells.poke index (~~~published index)⟩)) := by
  simp [kept.tryLock_eq_lockSeen inside, kept.lockSeen_eq inside]

theorem tryLock_behind (kept : Kept size published guards g) (behind : size ≤ index) :
    g.tryLock index = .error (.access (.outOfBounds index size)) := by
  rw [tryLock, kept.raw_behind behind]
  rfl

end Kept
end BulkSync.GuardedCells
