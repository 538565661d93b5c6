import BulkSync.Task.Action

/-!
# Scripted tasks

Tasks written down as lists of directives: they take notes, look at the signals, raise the stop flag,
fail, or wait for one another.
-/

namespace BulkSync

/-- One thing that a scripted task does. -/
inductive Directive (α : Type) where
  /-- Takes a note. -/
  | log (note : α)
  /-- Notes whether the batch is to stop and whether the flag is raised. -/
  | poll
  /-- Raises the stop flag. -/
  | raise
  /-- Reports an error. -/
  | report (text : String)
  /-- Fails with a fault. -/
  | fail (fault : Fault)
  /-- Comes to a meeting of two and waits for the other task of it. -/
  | meet
  /-- Waits until the batch is to stop, and for the failure behind it to be recorded. -/
  | awaitStop

/-- An entry of a notebook. -/
inductive Note (α : Type) where
  | written (note : α)
  | seen (shouldStop cancelled : Bool)

/-- What scripted tasks share: the stop flag, the task that waits at a meeting, and the notes with the
number of the task that took them. -/
structure Notebook (α : Type) where
  raised : Bool
  waiting : Option Nat
  notes : Array (Nat × Note α)

namespace Directive

variable {α : Type}

/-- Takes a note for a task. -/
def jot (task : Nat) (note : Note α) (book : Notebook α) : Notebook α :=
  { book with notes := book.notes.push (task, note) }

/-- Brings a task to a meeting: it joins the task that waits there, or waits if there is none. -/
def arrive (task : Nat) (book : Notebook α) : Notebook α :=
  { book with waiting := if book.waiting.isSome then none else some task }

/-- The actions of a directive in the task with a number. -/
def actions (task : Nat) : Directive α → Task (Notebook α)
  | .log note => [.ofFun fun _ book => (none, jot task (.written note) book)]
  | .poll => [.ofFun fun seen book => (none, jot task (.seen seen.shouldStop seen.cancelled) book)]
  | .raise => [.ofFun fun _ book => (none, { book with raised := true })]
  | .report text => [.ofFun fun _ book => (some (.reported text), book)]
  | .fail fault => [.ofFun fun _ book => (some (.struck fault), book)]
  | .meet =>
      -- only the task itself can wait under its number, and it does so once at a time
      [.ofFun fun _ book => (none, arrive task book),
        ⟨fun _ book => decide (book.waiting ≠ some task), fun _ book => (none, book)⟩]
  | .awaitStop =>
      [⟨fun seen _ => seen.shouldStop && (!seen.failed || seen.recorded), fun _ book => (none, book)⟩]

/-- The task with a number and a list of directives. -/
def task (number : Nat) (directives : List (Directive α)) : Task (Notebook α) :=
  directives.flatMap (actions number)

end Directive
end BulkSync
