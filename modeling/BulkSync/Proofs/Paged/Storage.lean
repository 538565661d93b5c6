import Mathlib.Algebra.Group.Nat.Defs
import BulkSync.Element

/-! # Arrays as their users see them

An array answers operations (`Operation`), and its user may keep several copies of it that go separate ways
(`Command`). A kind of array is given by what its operations do (`Storage`). The plainest kind is a list
that can be given up (`Flat`); where pages come into an answer it computes how many there would be.

One kind refines another one if each operation gives the same answer and leads to arrays that correspond
(`Storage.Refines`). The answers to all commands are the same then (`Refines.run_eq`), also if the elements
that an array is filled with are computed with effects. -/

namespace BulkSync

/-- What can be asked of an array. -/
inductive Operation (m : Type → Type) (α : Type) where
  | get (index : Nat)
  | tryGet (index : Nat)
  | set (index : Nat) (value : α)
  | trySet (index : Nat) (value : α)
  | fill (value : α)
  | assign (f : Nat → m α)
  | grow (size : Nat)
  | release (kind : Element α)
  | toList
  | size
  | pageCount

/-- What an array answers. An operation that may be refused says why; one that may not be fails. -/
inductive Answer (α : Type) where
  | done
  | element (value : α)
  | elements (values : List α)
  | count (n : Nat)
  | refused (error : AccessError)
  | failed (fault : Fault)
  deriving DecidableEq

/-- What is done to a family of arrays: something to one of them, or a copy is made. -/
inductive Command (m : Type → Type) (α : Type) where
  | at (array : Nat) (operation : Operation m α)
  | clone (array : Nat)

/-- What the operations do to a kind of array. -/
structure Storage (m : Type → Type) (σ α : Type) where
  read : σ → Nat → Except AccessError α
  write : σ → Nat → α → Except AccessError σ
  fill : σ → α → σ
  assign : σ → (Nat → m α) → m σ
  grow : σ → Nat → Except Fault σ
  release : Element α → σ → Nat × σ
  toList : σ → List α
  size : σ → Nat
  pageCount : σ → Nat

namespace Storage

variable {m : Type → Type} [Monad m] {σ τ α : Type}

def step (s : Storage m σ α) (a : σ) : Operation m α → m (Answer α × σ)
  | .get index => pure (match s.read a index with
      | .ok value => (.element value, a)
      | .error error => (.failed (.access error), a))
  | .tryGet index => pure (match s.read a index with
      | .ok value => (.element value, a)
      | .error error => (.refused error, a))
  | .set index value => pure (match s.write a index value with
      | .ok next => (.done, next)
      | .error error => (.failed (.access error), a))
  | .trySet index value => pure (match s.write a index value with
      | .ok next => (.done, next)
      | .error error => (.refused error, a))
  | .fill value => pure (.done, s.fill a value)
  | .assign f => do
      let next ← s.assign a f
      return (.done, next)
  | .grow size => pure (match s.grow a size with
      | .ok next => (.done, next)
      | .error fault => (.failed fault, a))
  | .release kind => pure (.count (s.release kind a).1, (s.release kind a).2)
  | .toList => pure (.elements (s.toList a), a)
  | .size => pure (.count (s.size a), a)
  | .pageCount => pure (.count (s.pageCount a), a)

/-- The answers of a family of arrays to commands. One that goes to no array of the family is not
answered. -/
def run (s : Storage m σ α) : List σ → List (Command m α) → m (List (Answer α))
  | _, [] => pure []
  | arrays, .clone array :: rest =>
      match arrays[array]? with
      | none => s.run arrays rest
      | some a => s.run (arrays ++ [a]) rest
  | arrays, .at array operation :: rest =>
      match arrays[array]? with
      | none => s.run arrays rest
      | some a => do
          let (answer, next) ← s.step a operation
          return answer :: (← s.run (arrays.set array next) rest)

/-! ## Refinement -/

/-- Two kinds of arrays of which the one does as the other does with the view of an array, as long as
something holds of it that the operations keep. -/
structure Refines (s : Storage m σ α) (t : Storage m τ α) (Holds : σ → Prop) (view : σ → τ) : Prop where
  read : ∀ {a}, Holds a → ∀ index, s.read a index = t.read (view a) index
  write : ∀ {a}, Holds a → ∀ index value,
    t.write (view a) index value = (s.write a index value).map view ∧
      ∀ next, s.write a index value = .ok next → Holds next
  fill : ∀ {a}, Holds a → ∀ value,
    t.fill (view a) value = view (s.fill a value) ∧ Holds (s.fill a value)
  assign : ∀ {a}, Holds a → ∀ f {β : Type} (further : σ → m β) (furtherToo : τ → m β),
    (∀ next, Holds next → further next = furtherToo (view next)) →
      s.assign a f >>= further = t.assign (view a) f >>= furtherToo
  grow : ∀ {a}, Holds a → ∀ size, t.grow (view a) size = (s.grow a size).map view ∧
    ∀ next, s.grow a size = .ok next → Holds next
  release : ∀ {a}, Holds a → ∀ kind,
    t.release kind (view a) = ((s.release kind a).1, view (s.release kind a).2) ∧
      Holds (s.release kind a).2
  toList : ∀ {a}, Holds a → s.toList a = t.toList (view a)
  size : ∀ {a}, Holds a → s.size a = t.size (view a)
  pageCount : ∀ {a}, Holds a → s.pageCount a = t.pageCount (view a)

namespace Refines

variable [LawfulMonad m] {s : Storage m σ α} {t : Storage m τ α} {Holds : σ → Prop} {view : σ → τ}

/-- One operation gives the same answer, and whatever is done with the array afterwards. -/
theorem step_bind (refines : s.Refines t Holds view) {a : σ} (holds : Holds a) (operation : Operation m α)
    {β : Type} (further : Answer α × σ → m β) (furtherToo : Answer α × τ → m β)
    (same : ∀ answer next, Holds next → further (answer, next) = furtherToo (answer, view next)) :
    s.step a operation >>= further = t.step (view a) operation >>= furtherToo := by
  cases operation with
  | get index =>
    simp only [step, pure_bind, refines.read holds]
    cases t.read (view a) index <;> exact same _ _ holds
  | tryGet index =>
    simp only [step, pure_bind, refines.read holds]
    cases t.read (view a) index <;> exact same _ _ holds
  | set index value =>
    obtain ⟨agrees, keeps⟩ := refines.write holds index value
    simp only [step, pure_bind, agrees]
    cases written : s.write a index value with
    | ok next => exact same _ _ (keeps next written)
    | error error => exact same _ _ holds
  | trySet index value =>
    obtain ⟨agrees, keeps⟩ := refines.write holds index value
    simp only [step, pure_bind, agrees]
    cases written : s.write a index value with
    | ok next => exact same _ _ (keeps next written)
    | error error => exact same _ _ holds
  | fill value =>
    obtain ⟨agrees, keeps⟩ := refines.fill holds value
    simp only [step, pure_bind, agrees]
    exact same _ _ keeps
  | assign f =>
    simp only [step, bind_assoc, pure_bind]
    exact refines.assign holds f _ _ fun next keeps => same _ _ keeps
  | grow size =>
    obtain ⟨agrees, keeps⟩ := refines.grow holds size
    simp only [step, pure_bind, agrees]
    cases grown : s.grow a size with
    | ok next => exact same _ _ (keeps next grown)
    | error fault => exact same _ _ holds
  | release kind =>
    obtain ⟨agrees, keeps⟩ := refines.release holds kind
    simp only [step, pure_bind, agrees]
    exact same _ _ keeps
  | toList =>
    simp only [step, pure_bind, refines.toList holds]
    exact same _ _ holds
  | size =>
    simp only [step, pure_bind, refines.size holds]
    exact same _ _ holds
  | pageCount =>
    simp only [step, pure_bind, refines.pageCount holds]
    exact same _ _ holds

theorem run_eq (refines : s.Refines t Holds view) (commands : List (Command m α)) (arrays : List σ)
    (hold : ∀ a ∈ arrays, Holds a) : s.run arrays commands = t.run (arrays.map view) commands := by
  induction commands generalizing arrays with
  | nil => rfl
  | cons command rest inductionHypothesis =>
    cases command with
    | clone array =>
      simp only [run, List.getElem?_map]
      cases found : arrays[array]? with
      | none => exact inductionHypothesis arrays hold
      | some a =>
        have holds := hold a (List.mem_of_getElem? found)
        have copied := inductionHypothesis (arrays ++ [a]) fun b member => by
          rcases List.mem_append.mp member with old | new
          · exact hold b old
          · exact List.mem_singleton.mp new ▸ holds
        simpa using copied
    | «at» array operation =>
      simp only [run, List.getElem?_map]
      cases found : arrays[array]? with
      | none => exact inductionHypothesis arrays hold
      | some a =>
        have holds := hold a (List.mem_of_getElem? found)
        refine refines.step_bind holds operation _ _ fun answer next keeps => ?_
        have onward := inductionHypothesis (arrays.set array next) fun b member => by
          rcases List.mem_or_eq_of_mem_set member with old | new
          · exact hold b old
          · exact new ▸ keeps
        simp only [onward, List.map_set]

end Refines
end Storage

/-! ## Lists -/

/-- A list of elements that can be given up. -/
structure Flat (α : Type) where
  elements : List α
  released : Bool

namespace Flat

variable {α : Type}

def read (l : Flat α) (index : Nat) : Except AccessError α :=
  if l.released then .error .released
  else
    match l.elements[index]? with
    | some value => .ok value
    | none => .error (.outOfBounds index l.elements.length)

def write (l : Flat α) (index : Nat) (value : α) : Except AccessError (Flat α) :=
  if l.released then .error .released
  else if index < l.elements.length then .ok { l with elements := l.elements.set index value }
  else .error (.outOfBounds index l.elements.length)

def fill (l : Flat α) (value : α) : Flat α :=
  { l with elements := List.replicate l.elements.length value }

/-- Asks for every element once, in ascending order of the indices. -/
def assign {m : Type → Type} [Monad m] (l : Flat α) (f : Nat → m α) : m (Flat α) := do
  let elements ← (List.range l.elements.length).mapM f
  return { l with elements := elements }

def grow [Inhabited α] (l : Flat α) (size : Nat) : Except Fault (Flat α) :=
  if l.released then .error (.access .released)
  else
    .ok { l with elements := l.elements ++ List.replicate (size - l.elements.length) default }

/-- How many pages of `2 ^ shift` elements there would be. -/
def pageCount (l : Flat α) (shift : Nat) : Nat :=
  if l.released then 0 else (l.elements.length + 2 ^ shift - 1) / 2 ^ shift

def release (l : Flat α) (kind : Element α) (shift : Nat) : Nat × Flat α :=
  (if l.released then 0 else l.pageCount shift * 2 ^ shift * kind.width, ⟨[], true⟩)

/-- A list in the place of an array with pages of `2 ^ shift` slots. -/
def storage (m : Type → Type) [Monad m] [Inhabited α] (shift : Nat) : Storage m (Flat α) α where
  read := read
  write := write
  fill := fill
  assign := assign
  grow := grow
  release kind l := l.release kind shift
  toList := elements
  size l := l.elements.length
  pageCount l := l.pageCount shift

end Flat
end BulkSync
