import Mathlib.Algebra.Group.Int.Defs
import BulkSync.Proofs.Fault
import BulkSync.Proofs.Paged.Shared

/-! # Exchanges in shared arrays

Whatever the users of a shared array do, and whatever foreign writers store meanwhile (`Cells.Reachable`),
its cells hold words of elements. So comparing words is comparing elements: an exchange happens if the
element held is the one expected (`compareExchange_eq`, `compareSet_eq`), and adding replaces the element
held by the sum, or leaves the array as it is if there is none (`addAt_eq`). Integers have a sum if the exact
sum is in their range (`Element.AddsExactly`). -/

namespace BulkSync

/-! ## Sums -/

namespace Element

/-- The elements stand for the integers of a range, and are added exactly or not at all. -/
def AddsExactly (α : Type) [Element α] (integer : α → Int) (least greatest : Int) : Prop :=
  ∀ a b : α, if least ≤ integer a + integer b ∧ integer a + integer b ≤ greatest then
    ∃ sum, add? a b = .ok sum ∧ integer sum = integer a + integer b
  else add? a b = .error .additionOverflow

theorem addsExactly_of_wraps {α : Type} [Element α] {integer : α → Int} {least greatest : Int}
    (wrapped : α → α → α)
    (checked : ∀ a b, add? a b = checkedSum least greatest (integer a + integer b) (wrapped a b))
    (exact : ∀ a b, least ≤ integer a + integer b → integer a + integer b ≤ greatest →
      integer (wrapped a b) = integer a + integer b) : AddsExactly α integer least greatest := by
  intro a b
  rw [checked, checkedSum]
  split
  · next inRange => exact ⟨wrapped a b, rfl, exact a b inRange.1 inRange.2⟩
  · rfl

theorem addsExactly_int32 : AddsExactly Int32 Int32.toInt (-2 ^ 31) (2 ^ 31 - 1) :=
  addsExactly_of_wraps (· + ·) (fun _ _ => rfl) fun a b above below => by
    rw [Int32.toInt_add]
    exact Int.bmod_eq_of_le (by omega) (by omega)

theorem addsExactly_uint32 : AddsExactly UInt32 (fun a => a.toNat) 0 (2 ^ 32 - 1) :=
  addsExactly_of_wraps (· + ·) (fun _ _ => rfl) fun a b above below => by
    rw [UInt32.toNat_add, Nat.mod_eq_of_lt (by omega), Int.natCast_add]

theorem addsExactly_int64 : AddsExactly Int64 Int64.toInt (-2 ^ 63) (2 ^ 63 - 1) :=
  addsExactly_of_wraps (· + ·) (fun _ _ => rfl) fun a b above below => by
    rw [Int64.toInt_add]
    exact Int.bmod_eq_of_le (by omega) (by omega)

theorem addsExactly_uint64 : AddsExactly UInt64 (fun a => a.toNat) 0 (2 ^ 64 - 1) :=
  addsExactly_of_wraps (· + ·) (fun _ _ => rfl) fun a b above below => by
    rw [UInt64.toNat_add, Nat.mod_eq_of_lt (by omega), Int.natCast_add]

end Element

namespace Cells

variable {α : Type} [Element α]

/-! ## What an exchange does -/

/-- The array with another element at an index, and nothing else changed. -/
structure Stores (a : Cells α) (index : Nat) (value : α) (b : Cells α) : Prop where
  here : b.peekWord index = Element.toWord value
  elsewhere : ∀ other, other ≠ index → b.peekWord other = a.peekWord other
  layout : b.layout = a.layout
  size : b.size = a.size
  pages : b.pageCount = a.pageCount
  released : b.released = a.released

theorem Stores.trans {a b c : Cells α} {index : Nat} {value later : α}
    (first : a.Stores index value b) (second : b.Stores index later c) :
    a.Stores index later c where
  here := second.here
  elsewhere other distinct := (second.elsewhere other distinct).trans (first.elsewhere other distinct)
  layout := second.layout.trans first.layout
  size := second.size.trans first.size
  pages := second.pages.trans first.pages
  released := second.released.trans first.released

theorem Stores.peek_eq {a b : Cells α} {index : Nat} {value : α} (stores : a.Stores index value b) :
    b.peek index = value := by
  rw [peek, stores.here, Element.ofWord_toWord]

/-- One try: others may store, the function is asked for what was read before that, and its answer is stored if
the exchange succeeds. -/
theorem transformFrom_cons (index : Nat) (f : α → Except Fault α) (meanwhile : Interlude α)
    (later : List (Interlude α)) (current : α) (calls : Nat) (a : Cells α) :
    transformFrom index f (meanwhile :: later) current calls a = match f current with
      | .error fault => (.error fault, a.disturb index meanwhile)
      | .ok next =>
          if Element.sameWord ((a.disturb index meanwhile).peek index) current && !meanwhile.spurious then
            (.ok ⟨current, next, calls + 1⟩, (a.disturb index meanwhile).poke index next)
          else transformFrom index f later ((a.disturb index meanwhile).peek index) (calls + 1)
            (a.disturb index meanwhile) := by
  rw [transformFrom]
  cases f current with
  | error fault => rfl
  | ok next =>
    dsimp only [weakExchange]
    cases (Element.sameWord ((a.disturb index meanwhile).peek index) current && !meanwhile.spurious) <;> rfl

namespace Sound

variable {a : Cells α} {index : Nat}

theorem stores_self (sound : a.Sound) (inside : index < a.size) : a.Stores index (a.peek index) a :=
  ⟨(sound.toWord_peek inside).symm, fun _ _ => rfl, rfl, rfl, rfl, rfl⟩

theorem stores_poke (sound : a.Sound) (inside : index < a.size) (value : α) :
    a.Stores index value (a.poke index value) where
  here := by
    rw [peekWord_eq]
    exact sound.covers.entry_setEntry 0 (Element.toWord value) inside
  elsewhere other distinct := peekWord_pokeWord_ne a _ (Ne.symm distinct)
  layout := rfl
  size := rfl
  pages := by simp [pageCount, Cells.poke, pokeWord]
  released := rfl

theorem compareExchange_eq (sound : a.Sound) (inside : index < a.size) (expected value : α) :
    a.compareExchange index expected value = .ok (a.peek index,
      if Element.sameWord (a.peek index) expected then a.poke index value else a) := by
  rw [Cells.compareExchange, check_of_lt (sound.unreleased inside) inside, Element.sameWord,
    sound.toWord_peek inside]
  rfl

theorem compareSet_eq (sound : a.Sound) (inside : index < a.size) (expected value : α) :
    a.compareSet index expected value = .ok (Element.sameWord (a.peek index) expected,
      if Element.sameWord (a.peek index) expected then a.poke index value else a) := by
  rw [Cells.compareSet, check_of_lt (sound.unreleased inside) inside, Element.sameWord,
    sound.toWord_peek inside]
  rfl

theorem addAt_eq (sound : a.Sound) (inside : index < a.size) (delta : α) :
    (addAt index delta).outcome a = match Element.add? (a.peek index) delta with
      | .ok sum => (.ok ⟨a.peek index, sum, 1⟩, a.poke index sum)
      | .error fault => (.error fault, a) := by
  rw [addAt, transformAmid, Attempt.outcome_of, check_of_lt (sound.unreleased inside) inside]
  simp only [Cells.transformFrom]
  cases Element.add? (a.peek index) delta <;> rfl

/-! ## What the operations keep -/

theorem exchanged {β : Type} {b : Cells α} {value : α} {found answer : β} {same : Bool} (sound : a.Sound)
    (ran : (a.check index >>= fun _ => pure (found, if same then a.poke index value else a)) =
      .ok (answer, b)) : b.Sound := by
  obtain ⟨_, _, last⟩ := bind_eq_ok_iff.mp ran
  cases last
  cases same with
  | false => exact sound
  | true => exact sound.poke index value

/-- What another writer stores in between is an element, too. -/
theorem disturb (sound : a.Sound) (index : Nat) (meanwhile : Interlude α) :
    (a.disturb index meanwhile).Sound := by
  rw [Cells.disturb]
  cases meanwhile.stored with
  | none => exact sound
  | some value => exact sound.poke index value

theorem transformFrom {f : α → Except Fault α} {script : List (Interlude α)} {current : α}
    {calls : Nat} (sound : a.Sound) :
    (Cells.transformFrom index f script current calls a).2.Sound := by
  induction script generalizing current calls a with
  | nil =>
    rw [Cells.transformFrom]
    cases f current with
    | error fault => exact sound
    | ok next => exact sound.poke index next
  | cons meanwhile script inductionHypothesis =>
    rw [transformFrom_cons]
    have disturbed := sound.disturb index meanwhile
    cases f current with
    | error fault => exact disturbed
    | ok next =>
      dsimp only
      split
      · exact disturbed.poke index next
      · exact inductionHypothesis disturbed

theorem transformAmid (sound : a.Sound) (index : Nat) (f : α → Except Fault α)
    (script : List (Interlude α)) : ((Cells.transformAmid index f script).outcome a).2.Sound := by
  rw [Cells.transformAmid, Attempt.outcome_of]
  cases a.check index with
  | error error => exact sound
  | ok => exact sound.transformFrom

end Sound
end Cells

/-! ## Reachable states -/

/-- How arrays of both kinds are made. -/
inductive Making (α : Type) where
  | new (size : Nat)
  | withShift (size shift : Nat)
  | filled (size : Nat) (value : α)

namespace Making

variable {α : Type}

def plain [Inhabited α] : Making α → Except Fault (Paged α)
  | .new size => .ok (Paged.new size)
  | .withShift size shift => Paged.withShift size shift
  | .filled size value => .ok (Paged.filled size value)

def shared [Element α] : Making α → Except Fault (Cells α)
  | .new size => .ok (Cells.new size)
  | .withShift size shift => Cells.withShift size shift
  | .filled size value => .ok (Cells.filled size value)

theorem plain_eq [Element α] (making : Making α) :
    making.plain = making.shared.map Cells.plain ∧ ∀ a, making.shared = .ok a → a.Sound := by
  cases making with
  | new size =>
    obtain ⟨sound, same⟩ := Cells.sound_ofLayout (α := α) size .usual
    exact ⟨congrArg Except.ok same.symm, fun a made => by cases made; exact sound⟩
  | withShift size shift =>
    rw [plain, shared, Paged.withShift, Cells.withShift]
    cases Paged.Layout.ofShift shift with
    | error fault => exact ⟨rfl, fun a made => by cases made⟩
    | ok layout =>
      cases reserved : Word.reserve (layout.pagesFor size) Paged.Layout.directoryEntry with
      | error fault => simp [bind, Except.bind, reserved, Except.map]
      | ok =>
        obtain ⟨sound, same⟩ := Cells.sound_ofLayout (α := α) size layout
        simp only [bind, Except.bind, reserved]
        exact ⟨congrArg Except.ok same.symm, fun a made => by cases made; exact sound⟩
  | filled size value =>
    obtain ⟨sound, same⟩ := Cells.sound_ofLayout (α := α) size .usual
    obtain ⟨kept, agrees⟩ := sound.assign fun _ => value
    refine ⟨congrArg Except.ok ?_, fun a made => by cases made; exact kept⟩
    rw [same] at agrees
    exact agrees.symm

end Making

namespace Cells

variable {α : Type} [Element α]

/-- The states that the users of an array and foreign writers can bring it into. -/
inductive Reachable : Cells α → Prop where
  | made {making : Making α} {a : Cells α} (made : making.shared = .ok a) : Reachable a
  | write {a b : Cells α} {index : Nat} {value : α} (before : Reachable a)
      (written : a.write index value = .ok b) : Reachable b
  | assign {a : Cells α} (before : Reachable a) (f : Nat → α) : Reachable (a.assign f)
  | grow {a b : Cells α} {size : Nat} (before : Reachable a) (grown : a.grow size = .ok b) : Reachable b
  | release {a : Cells α} (before : Reachable a) : Reachable a.release.2
  | exchange {a b : Cells α} {index : Nat} {expected value witness : α} (before : Reachable a)
      (exchanged : a.compareExchange index expected value = .ok (witness, b)) : Reachable b
  | set {a b : Cells α} {index : Nat} {expected value : α} {same : Bool} (before : Reachable a)
      (exchanged : a.compareSet index expected value = .ok (same, b)) : Reachable b
  | transform {a : Cells α} (before : Reachable a) (index : Nat) (f : α → Except Fault α)
      (script : List (Interlude α)) : Reachable ((transformAmid index f script).outcome a).2

theorem Reachable.sound {a : Cells α} (reachable : a.Reachable) : a.Sound := by
  induction reachable with
  | made made => exact (Making.plain_eq _).2 _ made
  | write _ written inductionHypothesis => exact (inductionHypothesis.write_plain _ _).2 _ written
  | assign _ f inductionHypothesis => exact (inductionHypothesis.assign f).1
  | grow _ grown inductionHypothesis => exact (inductionHypothesis.grow _).2 _ grown
  | release _ inductionHypothesis => exact (inductionHypothesis.release _).2
  | exchange _ exchanged inductionHypothesis => exact inductionHypothesis.exchanged exchanged
  | set _ exchanged inductionHypothesis => exact inductionHypothesis.exchanged exchanged
  | transform _ index f script inductionHypothesis => exact inductionHypothesis.transformAmid index f script

end Cells
end BulkSync
