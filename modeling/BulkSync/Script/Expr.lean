import BulkSync.Script.Operator
import BulkSync.Vertex.Program

/-!
# Expressions of scripts

An expression is made of literals, operators, and atoms that stand for what a context can tell. Its
value may take calls on the context, so evaluating it is a program. Operands are evaluated from left
to right, the second one of `and` and `or` only if the first one leaves the answer open.
-/

namespace BulkSync

/-- The expressions over a kind of atoms. -/
inductive Expr (α : Type) where
  | literal (value : Value)
  | atom (a : α)
  | not (e : Expr α)
  | and (a b : Expr α)
  | or (a b : Expr α)
  | binary (op : Operator) (a b : Expr α)
  /-- The least of a value and the received ones. -/
  | least (e : Expr α)
  /-- The greatest of a value and the received ones. -/
  | most (e : Expr α)

/-- The program whose value is a result. -/
def Program.ofExcept {I : Interface} {α : Type} : Except Fault α → Program I α
  | .ok value => .done value
  | .error fault => .fail fault

namespace Expr

variable {α : Type} {I : Interface}

instance : Inhabited (Expr α) := ⟨.literal default⟩

/-- Evaluates an expression, with `look` for its atoms and the values that were received. -/
def eval (look : α → Program I Value) (received : List Value) : Expr α → Program I Value
  | .literal value => pure value
  | .atom a => look a
  | .not e => do
      let v ← e.eval look received
      return .ofBool (!v.isTrue)
  | .and a b => do
      let v ← a.eval look received
      if v.isTrue then
        let w ← b.eval look received
        return .ofBool w.isTrue
      else return .ofBool false
  | .or a b => do
      let v ← a.eval look received
      if v.isTrue then return .ofBool true
      else
        let w ← b.eval look received
        return .ofBool w.isTrue
  | .binary op a b => do
      let v ← a.eval look received
      let w ← b.eval look received
      Program.ofExcept (op.apply v w)
  | .least e => do
      let v ← e.eval look received
      return received.foldl Value.min v
  | .most e => do
      let v ← e.eval look received
      return received.foldl Value.max v

/-- Whether an expression without received values is true. -/
def holds (look : α → Program I Value) (e : Expr α) : Program I Bool := do
  let v ← e.eval look []
  return v.isTrue

end Expr
end BulkSync
