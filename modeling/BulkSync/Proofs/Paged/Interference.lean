import BulkSync.Proofs.Paged.Exchange
import Mathlib.Logic.Basic

/-! # Updates under interference

An element is replaced by a function of it in tries: the cell is read, the function is asked, and the answer is
stored if the exchange succeeds. Others store into the cell meanwhile. The exchange of a try fails if they have left
another word there than was read, and it may fail spuriously (`Sound.transformFrom_step`); the next try goes on with
what the cell holds. So the update replaces what was in the cell right before, and nothing that was stored is
overwritten unseen (`interference`). -/

namespace BulkSync.Cells

variable {α : Type} [Element α]

/-! ## What happens meanwhile -/

/-- The array once the others have stored what they store during the first so many tries. -/
def disturbed (a : Cells α) (index : Nat) (script : List (Interlude α)) (tries : Nat) : Cells α :=
  (script.take tries).foldl (fun a meanwhile => a.disturb index meanwhile) a

/-- The element in the cell then. -/
def content (a : Cells α) (index : Nat) (script : List (Interlude α)) (tries : Nat) : α :=
  (a.disturbed index script tries).peek index

omit [Element α] in
/-- Whether the exchange of the try behind so many others is one that fails spuriously. -/
def spuriousAt (script : List (Interlude α)) (tries : Nat) : Bool := script[tries]?.any Interlude.spurious

/-- Whether that exchange fails: the others have left another word than was read, or it does so spuriously. -/
def failsAt (a : Cells α) (index : Nat) (script : List (Interlude α)) (tries : Nat) : Bool :=
  !Element.sameWord (a.content index script (tries + 1)) (a.content index script tries) || spuriousAt script tries

@[simp] theorem disturbed_nil (a : Cells α) (index tries : Nat) : a.disturbed index [] tries = a := by
  rw [disturbed, List.take_nil, List.foldl_nil]

theorem disturbed_succ (a : Cells α) (index : Nat) (script : List (Interlude α)) (tries : Nat) :
    a.disturbed index script (tries + 1) = (a.disturbed index script 1).disturbed index script.tail tries := by
  cases script with
  | nil => simp
  | cons meanwhile rest => rfl

theorem content_succ (a : Cells α) (index : Nat) (script : List (Interlude α)) (tries : Nat) :
    a.content index script (tries + 1) = (a.disturbed index script 1).content index script.tail tries :=
  congrArg (peek · index) (a.disturbed_succ index script tries)

theorem failsAt_nil (a : Cells α) (index tries : Nat) : a.failsAt index [] tries = false := by
  simp [failsAt, content, spuriousAt, Element.sameWord_iff.mpr]

theorem failsAt_succ (a : Cells α) (index : Nat) (script : List (Interlude α)) (tries : Nat) :
    a.failsAt index script (tries + 1) = (a.disturbed index script 1).failsAt index script.tail tries := by
  have next : spuriousAt script (tries + 1) = spuriousAt script.tail tries := by
    rw [spuriousAt, spuriousAt, List.getElem?_tail]
  rw [failsAt, failsAt, ← content_succ, ← content_succ, next]

/-- An exchange that succeeds has found what was read. -/
theorem content_of_succeeds {a : Cells α} {index tries : Nat} {script : List (Interlude α)}
    (succeeds : a.failsAt index script tries = false) :
    a.content index script (tries + 1) = a.content index script tries := by
  rw [failsAt, Bool.or_eq_false_iff, Bool.not_eq_false'] at succeeds
  exact Element.sameWord_iff.mp succeeds.1

namespace Sound

variable {a : Cells α} {index : Nat}

theorem disturbed (sound : a.Sound) (index : Nat) (script : List (Interlude α)) (tries : Nat) :
    (a.disturbed index script tries).Sound := by
  rw [Cells.disturbed]
  induction script.take tries generalizing a with
  | nil => exact sound
  | cons meanwhile rest inductionHypothesis => exact inductionHypothesis (sound.disturb index meanwhile)

/-- The others store into the one cell only. -/
theorem stores_disturbed (sound : a.Sound) (inside : index < a.size) (script : List (Interlude α)) (tries : Nat) :
    a.Stores index (a.content index script tries) (a.disturbed index script tries) := by
  rw [content, Cells.disturbed]
  induction script.take tries generalizing a with
  | nil => exact sound.stores_self inside
  | cons meanwhile rest inductionHypothesis =>
    rw [List.foldl_cons, Cells.disturb]
    cases meanwhile.stored with
    | none => exact inductionHypothesis sound inside
    | some value => exact (sound.stores_poke inside value).trans (inductionHypothesis (sound.poke index value) inside)

end Sound

/-! ## Tries -/

/-- So many tries have failed: the function had an answer, but the exchange did not succeed. -/
structure Late (a : Cells α) (index : Nat) (rule : α → Except Fault α) (script : List (Interlude α))
    (tries : Nat) : Prop where
  scripted : tries ≤ script.length
  answered : ∀ earlier < tries, ∃ next, rule (a.content index script earlier) = .ok next
  failed : ∀ earlier < tries, a.failsAt index script earlier = true

namespace Late

variable {a : Cells α} {index tries : Nat} {rule : α → Except Fault α} {script : List (Interlude α)}

theorem zero (a : Cells α) (index : Nat) (rule : α → Except Fault α) (script : List (Interlude α)) :
    a.Late index rule script 0 :=
  ⟨Nat.zero_le _, fun _ earlier => absurd earlier (Nat.not_lt_zero _),
    fun _ earlier => absurd earlier (Nat.not_lt_zero _)⟩

/-- A try that has failed, and more of them after it. -/
theorem succ {next : α} (answered : rule (a.peek index) = .ok next) (failed : a.failsAt index script 0 = true)
    (late : (a.disturbed index script 1).Late index rule script.tail tries) :
    a.Late index rule script (tries + 1) where
  scripted := by
    cases script with
    | nil =>
      rw [failsAt_nil] at failed
      cases failed
    | cons meanwhile rest => exact Nat.succ_le_succ late.scripted
  answered earlier within := by
    cases earlier with
    | zero => exact ⟨next, answered⟩
    | succ earlier =>
      rw [content_succ]
      exact late.answered earlier (Nat.lt_of_succ_lt_succ within)
  failed earlier within := by
    cases earlier with
    | zero => exact failed
    | succ earlier =>
      rw [failsAt_succ]
      exact late.failed earlier (Nat.lt_of_succ_lt_succ within)

end Late

/-- One try: the others may store, the function is asked for what was read before that, and its answer is stored
unless the exchange fails. -/
theorem transformFrom_step (a : Cells α) (index : Nat) (rule : α → Except Fault α)
    (script : List (Interlude α)) (calls : Nat) :
    transformFrom index rule script (a.peek index) calls a = match rule (a.peek index) with
      | .error fault => (.error fault, a.disturbed index script 1)
      | .ok next =>
          if a.failsAt index script 0 then
            transformFrom index rule script.tail (a.content index script 1) (calls + 1) (a.disturbed index script 1)
          else (.ok ⟨a.peek index, next, calls + 1⟩, (a.disturbed index script 1).poke index next) := by
  cases script with
  | nil =>
    rw [transformFrom, failsAt_nil, disturbed_nil]
    rfl
  | cons meanwhile rest =>
    have fails : a.failsAt index (meanwhile :: rest) 0 =
        !(Element.sameWord ((a.disturb index meanwhile).peek index) (a.peek index) && !meanwhile.spurious) := by
      rw [Bool.not_and, Bool.not_not]
      rfl
    rw [transformFrom_cons, fails]
    cases rule (a.peek index) with
    | error fault => rfl
    | ok next =>
      cases (Element.sameWord ((a.disturb index meanwhile).peek index) (a.peek index) && !meanwhile.spurious) <;> rfl

/-- What the try behind so many others comes to: the function has no answer, or it is stored over what was read. -/
def Ends (a : Cells α) (index : Nat) (rule : α → Except Fault α) (script : List (Interlude α)) (calls tries : Nat)
    (outcome : Except Fault (Transformed α) × Cells α) : Prop :=
  match rule (a.content index script tries) with
  | .error fault => outcome = (.error fault, a.disturbed index script (tries + 1))
  | .ok next => a.failsAt index script tries = false ∧
      outcome = (.ok ⟨a.content index script tries, next, calls + tries + 1⟩,
        (a.disturbed index script (tries + 1)).poke index next)

theorem Ends.succ {a : Cells α} {index calls tries : Nat} {rule : α → Except Fault α} {script : List (Interlude α)}
    {outcome : Except Fault (Transformed α) × Cells α}
    (ends : (a.disturbed index script 1).Ends index rule script.tail (calls + 1) tries outcome) :
    a.Ends index rule script calls (tries + 1) outcome := by
  rw [Ends, ← content_succ, ← failsAt_succ, ← disturbed_succ] at ends
  rw [Ends]
  split at ends
  · exact ends
  · rwa [show calls + (tries + 1) + 1 = calls + 1 + tries + 1 by omega]

theorem transformFrom_ends (a : Cells α) (index : Nat) {rule : α → Except Fault α} {script : List (Interlude α)}
    (calls : Nat) (last : ∀ next, rule (a.peek index) = .ok next → a.failsAt index script 0 = false) :
    a.Ends index rule script calls 0 (transformFrom index rule script (a.peek index) calls a) := by
  rw [transformFrom_step, Ends, show a.content index script 0 = a.peek index from rfl]
  cases answered : rule (a.peek index) with
  | error fault => rfl
  | ok next =>
    have succeeds := last next answered
    exact ⟨succeeds, if_neg (Bool.eq_false_iff.mp succeeds)⟩

/-- The tries go on until the function has no answer, or an exchange succeeds. -/
theorem transformFrom_late (a : Cells α) (index : Nat) (rule : α → Except Fault α)
    (script : List (Interlude α)) (calls : Nat) : ∃ tries, a.Late index rule script tries ∧
      a.Ends index rule script calls tries (transformFrom index rule script (a.peek index) calls a) := by
  induction script generalizing a calls with
  | nil => exact ⟨0, .zero .., a.transformFrom_ends index calls fun _ _ => a.failsAt_nil index 0⟩
  | cons meanwhile rest inductionHypothesis =>
    by_cases last : ∀ next, rule (a.peek index) = .ok next → a.failsAt index (meanwhile :: rest) 0 = false
    · exact ⟨0, .zero .., a.transformFrom_ends index calls last⟩
    · obtain ⟨next, some⟩ := not_forall.mp last
      obtain ⟨answered, fails⟩ := Classical.not_imp.mp some
      rw [Bool.not_eq_false] at fails
      obtain ⟨tries, late, ends⟩ := inductionHypothesis (a.disturbed index (meanwhile :: rest) 1) (calls + 1)
      rw [transformFrom_step, answered]
      simp only [fails, if_true]
      exact ⟨tries + 1, late.succ answered fails, ends.succ⟩

/-! ## Updates -/

/-- How an element can be replaced by a function of it, and which of the two is answered. -/
inductive Updating (α : Type) where
  | update (f : α → Except Fault α)
  | getAndUpdate (f : α → Except Fault α)
  | getAndAdd (delta : α)
  | addAndGet (delta : α)

namespace Updating

/-- The function that is asked. -/
def rule : Updating α → α → Except Fault α
  | update f | getAndUpdate f => f
  | getAndAdd delta | addAndGet delta => fun current => Element.add? current delta

def reply (before after : α) : Updating α → α
  | update _ | addAndGet _ => after
  | getAndUpdate _ | getAndAdd _ => before

/-- The reply, and how often the function was asked. -/
def run (u : Updating α) (index : Nat) (script : List (Interlude α)) : Attempt (Cells α) (α × Nat) := do
  let done ← transformAmid index u.rule script
  return (u.reply done.before done.after, done.calls)

end Updating

/-- Of so many tries, those during which the others have left another word than was read. -/
def missed (a : Cells α) (index : Nat) (script : List (Interlude α)) (tries : Nat) : Nat :=
  (List.range tries).countP fun earlier =>
    !Element.sameWord (a.content index script (earlier + 1)) (a.content index script earlier)

/-- Of so many tries, those whose exchange has failed although the others have left the word that was read. -/
def thwarted (a : Cells α) (index : Nat) (script : List (Interlude α)) (tries : Nat) : Nat :=
  (List.range tries).countP fun earlier =>
    Element.sameWord (a.content index script (earlier + 1)) (a.content index script earlier) &&
      spuriousAt script earlier

/-- An element was replaced by what the function says of it: it was in the cell right before, and nothing but the
cell has changed. -/
structure Replaced (a : Cells α) (index : Nat) (rule : α → Except Fault α) (script : List (Interlude α))
    (calls : Nat) (before after : α) (b : Cells α) : Prop where
  counted : calls = 1 + a.missed index script calls + a.thwarted index script calls
  /-- If no exchange fails spuriously, only what the others have stored makes a try fail. -/
  steady : (∀ meanwhile ∈ script, meanwhile.spurious = false) → calls = 1 + a.missed index script calls
  found : Element.toWord before = (a.disturbed index script calls).peekWord index
  answered : rule before = .ok after
  stored : a.Stores index after b

theorem thwarted_eq_zero {script : List (Interlude α)} (steady : ∀ meanwhile ∈ script, meanwhile.spurious = false)
    (a : Cells α) (index tries : Nat) : a.thwarted index script tries = 0 := by
  refine List.countP_eq_zero.mpr fun earlier _ => ?_
  have never : spuriousAt script earlier = false := by
    rw [spuriousAt]
    cases found : script[earlier]? with
    | none => rfl
    | some meanwhile => exact steady meanwhile (List.mem_of_getElem? found)
  simp [never]

/-- Every try but the last has failed, for one of the two reasons. -/
theorem Late.counted {a : Cells α} {index tries : Nat} {rule : α → Except Fault α}
    {script : List (Interlude α)} (late : a.Late index rule script tries)
    (succeeds : a.failsAt index script tries = false) :
    tries + 1 = 1 + a.missed index script (tries + 1) + a.thwarted index script (tries + 1) := by
  have reasons : (List.range tries).countP (fun earlier =>
      Element.sameWord (a.content index script (earlier + 1)) (a.content index script earlier) &&
        spuriousAt script earlier) =
      (List.range tries).countP fun earlier => decide (¬ (!Element.sameWord (a.content index script (earlier + 1))
        (a.content index script earlier)) = true) := by
    refine List.countP_congr fun earlier member => ?_
    have fails := late.failed earlier (List.mem_range.mp member)
    rw [failsAt] at fails
    cases same : Element.sameWord (a.content index script (earlier + 1)) (a.content index script earlier) with
    | false => simp
    | true => simpa [same] using fails
  have all := List.length_eq_countP_add_countP (fun earlier =>
    !Element.sameWord (a.content index script (earlier + 1)) (a.content index script earlier)) (l := List.range tries)
  rw [List.length_range, ← reasons] at all
  rw [failsAt, Bool.or_eq_false_iff] at succeeds
  rw [missed, thwarted, List.range_succ, List.countP_append, List.countP_append, List.countP_singleton,
    List.countP_singleton, succeeds.1, succeeds.2, Bool.and_false]
  simp only [Bool.false_eq_true, if_false, Nat.add_zero]
  omega

theorem Updating.outcome_run {a b : Cells α} {index : Nat} {script : List (Interlude α)} (u : Updating α)
    {result : Except Fault (Transformed α)} (inside : a.check index = .ok ())
    (ran : transformFrom index u.rule script (a.peek index) 0 a = (result, b)) :
    (u.run index script).outcome a = (result.map fun done => (u.reply done.before done.after, done.calls), b) := by
  rw [run, Attempt.outcome_bind, transformAmid, Attempt.outcome_of, inside]
  dsimp only
  rw [ran]
  cases result <;> rfl

/-- Whatever others store meanwhile, an update ends, with the first try whose exchange succeeds. What it replaces was
in the cell right before. If the function has no answer, the cell is left with what the others have stored in it. -/
theorem interference {a : Cells α} (reachable : a.Reachable) {index : Nat} (inside : index < a.size)
    (u : Updating α) (script : List (Interlude α)) : ∃ tries, a.Late index u.rule script tries ∧
      match u.rule (a.content index script tries) with
      | .error fault => ∃ b, (u.run index script).outcome a = (.error fault, b) ∧
          a.Stores index (a.content index script (tries + 1)) b
      | .ok after => ∃ before b, (u.run index script).outcome a = (.ok (u.reply before after, tries + 1), b) ∧
          a.Replaced index u.rule script (tries + 1) before after b := by
  have sound := reachable.sound
  have checked := check_of_lt (sound.unreleased inside) inside
  obtain ⟨tries, late, ends⟩ := a.transformFrom_late index u.rule script 0
  have stored := sound.stores_disturbed inside script (tries + 1)
  refine ⟨tries, late, ?_⟩
  rw [Ends] at ends
  cases answered : u.rule (a.content index script tries) with
  | error fault =>
    rw [answered] at ends
    exact ⟨_, u.outcome_run checked ends, stored⟩
  | ok after =>
    rw [answered] at ends
    obtain ⟨succeeds, ran⟩ := ends
    rw [Nat.zero_add] at ran
    have counted := late.counted succeeds
    refine ⟨_, _, u.outcome_run checked ran, counted, fun steady => ?_, ?_, answered, ?_⟩
    · rwa [a.thwarted_eq_zero steady] at counted
    · rw [stored.here, content_of_succeeds succeeds]
    · exact stored.trans ((sound.disturbed index script _).stores_poke (stored.size ▸ inside) after)

/-- The others store a zero of the other sign, a NaN, the same NaN again, and at last a zero. The exchange that finds
the same NaN again fails once. -/
def signs : List (Interlude Binary64) :=
  [{ stored := some (Binary.ofParts true 0) }, { stored := some Binary.nan },
    { stored := some Binary.nan, spurious := true }, {}, { stored := some default }]

/-- Puts one in place of what is no number. -/
def numbered : Updating Binary64 := .getAndUpdate fun current => .ok (if current.isNaN then Element.one else current)

theorem interference_signs : (ofLayout 3 ⟨1⟩ : Cells Binary64).Reachable ∧ 2 < 3 ∧
    ((numbered.run 2 signs).outcome (ofLayout 3 ⟨1⟩)).1 = .ok (Binary.nan, 4) ∧
    ∃ tries, (ofLayout 3 ⟨1⟩ : Cells Binary64).Late 2 numbered.rule signs tries ∧
      ∃ after before b, (numbered.run 2 signs).outcome (ofLayout 3 ⟨1⟩) =
          (.ok (numbered.reply before after, tries + 1), b) ∧
        (ofLayout 3 ⟨1⟩ : Cells Binary64).Replaced 2 numbered.rule signs (tries + 1) before after b := by
  have reachable : (ofLayout 3 ⟨1⟩ : Cells Binary64).Reachable :=
    .made (show (Making.withShift 3 1).shared = .ok (ofLayout 3 ⟨1⟩) from rfl)
  obtain ⟨tries, late, ended⟩ := interference reachable (show 2 < 3 by decide) numbered signs
  exact ⟨reachable, by decide, by decide +kernel, tries, late, _, ended⟩

end BulkSync.Cells
