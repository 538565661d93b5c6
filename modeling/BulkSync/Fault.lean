import BulkSync.Property.Kind

/-!
# Causes of failure

Everything that can go wrong is a constructor; the wording is in one place per type.
A computation that fails keeps the state it had reached: `Attempt` returns the outcome together with
the state, whatever the outcome is.
-/

namespace BulkSync

/-- Why a slot of a paged array cannot be reached. -/
inductive AccessError where
  | outOfBounds (index size : Nat)
  | released
  deriving DecidableEq, Repr

/-- The wording of an access error. -/
def AccessError.message : AccessError → String
  | .outOfBounds index size => s!"index {index} out of bounds for paged array of size {size}"
  | .released => "paged array was released"

/-- Why a node property cannot be reached under a key. -/
inductive PropertyError where
  | unknown (key : String)
  | mismatch (key : String) (expected actual : PropertyKind)
  deriving DecidableEq, Repr

/-- The wording of a property error. -/
def PropertyError.message : PropertyError → String
  | .unknown key => "unknown node property `" ++ key ++ "`"
  | .mismatch key expected actual =>
      "node property `" ++ key ++ "` is " ++ actual.name ++ ", not " ++ expected.name

/-- The causes that end an operation, or a whole run, at once. -/
inductive Fault where
  /-- A slot outside an array, or of a released one. -/
  | access (error : AccessError)
  /-- A property that is not declared, or declared with the other kind. -/
  | property (error : PropertyError)
  /-- A page of more slots than allowed. -/
  | pageShift (shift greatest : Nat)
  /-- A sum beyond the greatest value of its type. -/
  | additionOverflow
  /-- A product beyond the greatest value of its type. -/
  | multiplicationOverflow
  /-- A remainder by zero. -/
  | remainderByZero
  /-- A remainder of numbers whose quotient is beyond the greatest value of their type. -/
  | remainderOverflow
  /-- A list that no address space could hold. -/
  | capacityOverflow
  /-- A bit outside a set of bits. -/
  | bitOutOfBounds (bit bits : Nat)
  /-- A negative number offered to a guarded cell. -/
  | negativeGuarded
  /-- A negative number of hops offered to a path table. -/
  | negativeHops (hops : Int)
  /-- Runs aligned to multiples of zero. -/
  | zeroAlignment
  /-- An edge with an end that is no node. -/
  | edgeOutOfBounds (source target nodes : Nat)
  /-- A row of a graph that is not there. -/
  | nodeOutOfBounds (node : Nat)
  /-- A message to something that is no node. -/
  | targetOutOfBounds (target nodes : Nat)
  /-- A property key declared a second time. -/
  | declaredTwice (key : String)
  /-- A fault raised by the user's own code, with its text. -/
  | raised (text : String)
  /-- A fault raised by the user's own code without a text. -/
  | raisedWithoutText
  deriving DecidableEq, Repr

/-- The wording of a fault. -/
def Fault.message : Fault → String
  | .access error => error.message
  | .property error => error.message
  | .pageShift shift greatest => s!"page shift {shift} exceeds maximum {greatest}"
  | .additionOverflow => "attempt to add with overflow"
  | .multiplicationOverflow => "attempt to multiply with overflow"
  | .remainderByZero => "attempt to calculate the remainder with a divisor of zero"
  | .remainderOverflow => "attempt to calculate the remainder with overflow"
  | .capacityOverflow => "capacity overflow"
  | .bitOutOfBounds bit bits => s!"bit {bit} out of bounds for bitset of {bits} bits"
  | .negativeGuarded => "sign-bit locked values must be non-negative"
  | .negativeHops hops => s!"hop count must be non-negative, got {hops}"
  | .zeroAlignment => "align_to must be > 0"
  | .edgeOutOfBounds source target nodes =>
      s!"edge {source}->{target} is out of bounds for n={nodes}"
  | .nodeOutOfBounds node => s!"node {node} out of bounds"
  | .targetOutOfBounds target nodes => s!"message target {target} out of bounds for {nodes} nodes"
  | .declaredTwice key => "node property `" ++ key ++ "` declared twice"
  | .raised text => text
  | .raisedWithoutText => "non-string panic payload"

/-- A step over a state that may fail; the state it reached is kept in either case. -/
abbrev Attempt (σ α : Type) : Type := ExceptT Fault (StateM σ) α

namespace Attempt

/-- The step that computes outcome and state by `f`. -/
def of {σ α : Type} (f : σ → Except Fault α × σ) : Attempt σ α := ExceptT.mk f

/-- Outcome and state after the step. -/
def outcome {σ α : Type} (step : Attempt σ α) (s : σ) : Except Fault α × σ := ExceptT.run step s

/-- Outcome and state after a step that succeeds; a failure gives the state up. -/
def result {σ α : Type} (step : Attempt σ α) (s : σ) : Except Fault (α × σ) :=
  match step.outcome s with
  | (.ok a, t) => .ok (a, t)
  | (.error fault, _) => .error fault

/-- The step that leaves the state as it is. -/
def lift {σ α : Type} (result : Except Fault α) : Attempt σ α := of fun s => (result, s)

/-- The step that reads a part of the state, which may fail. -/
def inspect {σ α : Type} (f : σ → Except Fault α) : Attempt σ α := of fun s => (f s, s)

/-- The step that changes the state and cannot fail. -/
def change {σ : Type} (f : σ → σ) : Attempt σ Unit := of fun s => (.ok (), f s)

/-- The step that replaces the state, or fails and keeps it. -/
def replace {σ : Type} (f : σ → Except Fault σ) : Attempt σ Unit :=
  of fun s =>
    match f s with
    | .ok t => (.ok (), t)
    | .error fault => (.error fault, s)

/-- A step on a part of the state, which is put back whether the step succeeds or fails. -/
def within {σ τ α : Type} (part : σ → τ) (putBack : τ → σ → σ) (step : Attempt τ α) : Attempt σ α :=
  of fun s =>
    let (result, t) := step.outcome (part s)
    (result, putBack t s)

/-! ### Outcomes of steps -/

variable {σ τ α β : Type}

@[simp] theorem outcome_of (f : σ → Except Fault α × σ) (s : σ) : (of f).outcome s = f s := rfl

@[simp] theorem outcome_pure (a : α) (s : σ) :
    (pure a : Attempt σ α).outcome s = (.ok a, s) := rfl

@[simp] theorem outcome_throw (fault : Fault) (s : σ) :
    (throw fault : Attempt σ α).outcome s = (.error fault, s) := rfl

@[simp] theorem outcome_lift (result : Except Fault α) (s : σ) :
    (lift result : Attempt σ α).outcome s = (result, s) := rfl

@[simp] theorem outcome_inspect (f : σ → Except Fault α) (s : σ) :
    (inspect f).outcome s = (f s, s) := rfl

@[simp] theorem outcome_change (f : σ → σ) (s : σ) : (change f).outcome s = (.ok (), f s) := rfl

@[simp] theorem outcome_within (part : σ → τ) (putBack : τ → σ → σ) (step : Attempt τ α) (s : σ) :
    (within part putBack step).outcome s =
      ((step.outcome (part s)).1, putBack (step.outcome (part s)).2 s) := rfl

/-- A sequence of two steps goes on after the first one only if that succeeds; a failure keeps the
state at which it struck. -/
theorem outcome_bind (step : Attempt σ α) (next : α → Attempt σ β) (s : σ) :
    (step >>= next).outcome s =
      match step.outcome s with
      | (.ok a, t) => (next a).outcome t
      | (.error fault, t) => (.error fault, t) := by
  change (match step.outcome s with | (result, t) => ExceptT.bindCont next result t) = _
  cases step.outcome s with
  | mk result t =>
    cases result with
    | ok a => rfl
    | error fault => rfl

end Attempt
end BulkSync
