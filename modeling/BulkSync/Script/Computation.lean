import BulkSync.Graph.View
import BulkSync.Script.Instruction

/-!
# Scripted computations

A computation written down as data: its properties, its reducer, and lists of instructions. Behind a
superstep it may fail, raise the stop flag, or stop, each on a condition of its own, in this order.
-/

namespace BulkSync

/-- What is known behind a superstep. -/
inductive MasterAtom where
  | superstep
  | nodes
  | edges
  /-- The sum of a property over all nodes, wrapped around. -/
  | sumLong (key : String)
  /-- The sum of a property over all nodes, from the first to the last. -/
  | sumDouble (key : String)
  /-- How many nodes a walk over all nodes comes to that ends once it has seen so many. -/
  | visited (limit : Nat)

/-- The value of an atom. -/
def MasterAtom.look (view : MasterView) : MasterAtom → Program MasterContext Value
  | .superstep => pure (.ofNat view.superstep)
  | .nodes => pure (.ofNat view.nodes)
  | .edges => pure (.ofNat view.edges)
  | .sumLong key => do
      let longs ← MasterContext.longs key
      return .long (longs.foldl (· + ·) 0)
  | .sumDouble key => do
      let doubles ← MasterContext.doubles key
      return .double (doubles.foldl Binary.add default)
  | .visited limit =>
      let visit : Visitor Nat Nat := fun seen _ => (seen + 1, decide (seen + 1 < limit))
      pure (.ofNat (foldWhile visit (List.range view.nodes) 0).1)

/-- A computation written down as data. -/
structure Script (M : Type) where
  properties : List Property
  reducer : Option (Reducer M)
  setup : List SetupInstruction
  compute : List Instruction
  /-- When to fail behind a superstep, and with which text. -/
  failIf : Option (Expr MasterAtom × String)
  /-- When to raise the stop flag behind a superstep. -/
  raiseIf : Option (Expr MasterAtom)
  /-- When to stop behind a superstep. -/
  stopIf : Option (Expr MasterAtom)

namespace Script

/-- Whether there is a condition, and it holds. -/
def met (view : MasterView) : Option (Expr MasterAtom) → Program MasterContext Bool
  | none => pure false
  | some condition => condition.holds (MasterAtom.look view)

/-- What a script does behind a superstep. -/
def master {M : Type} (s : Script M) (view : MasterView) : Program MasterContext Bool := do
  match s.failIf with
  | none => pure ()
  | some (condition, text) =>
      if ← condition.holds (MasterAtom.look view) then .fail (.raised text)
  if ← met view s.raiseIf then MasterContext.raise
  met view s.stopIf

/-- The computation of a script. -/
def computation {M : Type} [Element M] (s : Script M) : Computation M where
  schema := Schema.ofList s.properties
  reducer := s.reducer
  setup view := SetupInstruction.programs view s.setup
  compute view messages := Instruction.programs view messages s.compute
  master := s.master

end Script
end BulkSync
