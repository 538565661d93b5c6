import BulkSync.Fault

/-!
# Programs that call on a context

The code that a user supplies is a tree: it calls on its context, goes on with the answer, and in the
end is done or fails. What the calls do is up to the handler that the tree is run with, so that the
code can touch nothing but what the handler lets it touch.
-/

namespace BulkSync

/-- The calls that a context takes, and what it answers to each. -/
structure Interface where
  Call : Type
  Answer : Call → Type

/-- A program that calls on a context of an interface. -/
inductive Program (I : Interface) (α : Type) : Type where
  | done (value : α)
  | fail (fault : Fault)
  | ask (call : I.Call) (next : I.Answer call → Program I α)

namespace Program

variable {I : Interface} {α β : Type}

/-- One program, and then another that depends on its value. -/
def bind : Program I α → (α → Program I β) → Program I β
  | .done value, f => f value
  | .fail fault, _ => .fail fault
  | .ask call next, f => .ask call fun answer => (next answer).bind f

instance : Monad (Program I) where
  pure := .done
  bind := bind

/-- The program that makes one call. -/
def call (c : I.Call) : Program I (I.Answer c) := .ask c .done

/-- Runs a program against a context whose state is `σ`. The first call that fails ends it. -/
def run {σ : Type} (handle : (c : I.Call) → Attempt σ (I.Answer c)) : Program I α → Attempt σ α
  | .done value => pure value
  | .fail fault => throw fault
  | .ask c next => handle c >>= fun answer => (next answer).run handle

/-! ## Laws -/

@[simp] theorem pure_eq_done (a : α) : (pure a : Program I α) = .done a := rfl

@[simp] theorem bind_eq_bind (p : Program I α) (f : α → Program I β) : p >>= f = p.bind f := rfl

@[simp] theorem done_bind (a : α) (f : α → Program I β) : (done a).bind f = f a := rfl

@[simp] theorem fail_bind (fault : Fault) (f : α → Program I β) :
    (fail fault : Program I α).bind f = .fail fault := rfl

@[simp] theorem ask_bind (c : I.Call) (next : I.Answer c → Program I α) (f : α → Program I β) :
    (ask c next).bind f = .ask c fun answer => (next answer).bind f := rfl

/-- A program followed by nothing is the program. -/
@[simp] theorem bind_done (p : Program I α) : p.bind .done = p := by
  induction p with
  | done a => rfl
  | fail fault => rfl
  | ask c next ih => simp [ih]

/-- What follows a sequence follows its second part. -/
theorem bind_assoc {δ : Type} (p : Program I α) (f : α → Program I β) (g : β → Program I δ) :
    (p.bind f).bind g = p.bind fun a => (f a).bind g := by
  induction p with
  | done a => rfl
  | fail fault => rfl
  | ask c next ih => simp [ih]

variable {σ : Type} (handle : (c : I.Call) → Attempt σ (I.Answer c))

@[simp] theorem run_done (a : α) : (done a).run handle = pure a := rfl

@[simp] theorem run_fail (fault : Fault) : (fail fault : Program I α).run handle = throw fault := rfl

@[simp] theorem run_ask (c : I.Call) (next : I.Answer c → Program I α) :
    (ask c next).run handle = handle c >>= fun answer => (next answer).run handle := rfl

/-- A sequence of programs runs as a sequence of steps. -/
theorem run_bind (p : Program I α) (f : α → Program I β) :
    (p.bind f).run handle = p.run handle >>= fun a => (f a).run handle := by
  induction p with
  | done a => rfl
  | fail fault => rfl
  | ask c next ih =>
    simp only [ask_bind, run_ask, ih]
    exact (LawfulMonad.bind_assoc _ _ _).symm

end Program
end BulkSync
