import Mathlib.Algebra.GroupWithZero.Nat
import Mathlib.Data.List.Induction
import Mathlib.Data.List.Infix
import BulkSync.ProgressMeter
import BulkSync.Proofs.Calls

/-! # What progress meters count

A meter counts the units that are reported, modulo its width, whatever becomes of the percentage
(`run_calls`). A report fails where the count does not fit the width, and where the percentage of another tenth
of the volume does not (`onMeter_eq_some_iff`). Of a volume whose percentages all fit, every report is answered
just if the units since each reset fit (`Fits`, `calm_iff`). -/

namespace BulkSync.ProgressMeter

/-- What a meter is asked. -/
inductive Call where
  | log (amount : Nat)
  | reset

namespace Call

/-- The units that a call reports. A reset reports none. -/
def amount? : Call → Option Nat
  | log amount => some amount
  | reset => none

def steps : Call → Attempt ProgressMeter Unit
  | log amount => ProgressMeter.log amount
  | reset => Attempt.change ProgressMeter.reset

/-- The fault that strikes a call, if any. The count goes on from what the call has left. -/
def onMeter (call : Call) : StateM ProgressMeter (Option Fault) := call.steps.fault?

end Call

/-- The units that have been reported since the last reset. -/
def sinceReset (calls : List Call) : Nat :=
  ((calls.reverse.takeWhile (·.amount?.isSome)).filterMap Call.amount?).sum

/-- At no time have more units been reported since the last reset than the width of a meter holds. -/
def Fits (calls : List Call) : Prop := ∀ front, front <+: calls → sinceReset front < Word.limit

/-- A tenth of the volume, and one at least. -/
def tenth (volume : Nat) : Nat := max (volume / 10) 1

/-- The fault that strikes a call on a meter of a volume at which so much is done. -/
inductive Overflows (volume done : Nat) : Call → Fault → Prop
  /-- The count does not fit. -/
  | count {amount : Nat} (some : volume ≠ 0) (beyond : Word.limit ≤ done + amount) :
      Overflows volume done (.log amount) .additionOverflow
  /-- Another tenth of the volume is passed, and the percentage does not fit. -/
  | percentage {amount mark : Nat} (some : volume ≠ 0) (fits : done + amount < Word.limit)
      (before : done < mark * tenth volume) (passed : mark * tenth volume ≤ done + amount)
      (beyond : Word.limit ≤ min (done + amount) volume * 100) :
      Overflows volume done (.log amount) .multiplicationOverflow

/-! ## The count -/

theorem sinceReset_concat_log (calls : List Call) (amount : Nat) :
    sinceReset (calls ++ [.log amount]) = sinceReset calls + amount := by
  simp [sinceReset, Call.amount?, Nat.add_comm]

theorem sinceReset_concat_reset (calls : List Call) : sinceReset (calls ++ [.reset]) = 0 := by
  simp [sinceReset, Call.amount?]

/-- A report is counted whether it fails or not. -/
theorem outcome_log (amount : Nat) (m : ProgressMeter) : (log amount).outcome m =
    ((percentage m.volume m.done amount).map fun _ => (), { m with done := (m.done + amount) % Word.limit }) := rfl

theorem run_calls (task : String) (volume : Nat) (calls : List Call) :
    ((calls.mapM Call.onMeter).run (new task volume)).2 = ⟨task, volume, sinceReset calls % Word.limit⟩ := by
  induction calls using List.reverseRecOn with
  | nil => rfl
  | append_singleton front call inductionHypothesis =>
    rw [Lockstep.state_mapM_concat, inductionHypothesis, Call.onMeter, Attempt.state_fault?]
    cases call with
    | log amount => simp only [Call.steps, outcome_log, sinceReset_concat_log, Nat.mod_add_mod]
    | reset => rw [sinceReset_concat_reset]; rfl

/-! ## The percentage -/

theorem tenth_pos (volume : Nat) : 0 < tenth volume := by
  rw [tenth]
  omega

/-- Two counts are in different steps just if a multiple of the step is passed between them. -/
theorem passes_iff {step : Nat} (positive : 0 < step) (done amount : Nat) :
    done / step ≠ (done + amount) / step ↔ ∃ mark, done < mark * step ∧ mark * step ≤ done + amount := by
  have grows : done / step ≤ (done + amount) / step := Nat.div_le_div_right (Nat.le_add_right done amount)
  constructor
  · intro different
    refine ⟨(done + amount) / step, ?_, Nat.div_mul_le_self _ _⟩
    exact (Nat.div_lt_iff_lt_mul positive).mp (Nat.lt_of_le_of_ne grows different)
  · rintro ⟨mark, before, passed⟩
    have below := (Nat.div_lt_iff_lt_mul positive).mpr before
    have above := (Nat.le_div_iff_mul_le positive).mpr passed
    exact Nat.ne_of_lt (Nat.lt_of_lt_of_le below above)

theorem percentage_eq (volume done amount : Nat) : percentage volume done amount =
    if volume = 0 then .ok none
    else if Word.limit ≤ done + amount then .error .additionOverflow
    else if done / tenth volume = (done + amount) / tenth volume then .ok none
    else if Word.limit ≤ min (done + amount) volume * 100 then .error .multiplicationOverflow
    else .ok (some (min (done + amount) volume * 100 / volume)) := by
  rw [percentage]
  split
  · rfl
  rcases Nat.lt_or_ge (done + amount) Word.limit with fits | beyond
  · rw [Word.add?, if_pos fits, if_neg (Nat.not_le.mpr fits)]
    change (if done / tenth volume = (done + amount) / tenth volume then _ else _) = _
    split
    · rfl
    rcases Nat.lt_or_ge (min (done + amount) volume * 100) Word.limit with fitsToo | beyondToo
    · rw [Word.mul?, if_pos fitsToo, if_neg (Nat.not_le.mpr fitsToo)]
      rfl
    · rw [Word.mul?, if_neg (Nat.not_lt.mpr beyondToo), if_pos beyondToo]
      rfl
  · rw [Word.add?, if_neg (Nat.not_lt.mpr beyond), if_pos beyond]
    rfl

theorem percentage_eq_error_iff (volume done amount : Nat) (fault : Fault) :
    percentage volume done amount = .error fault ↔ Overflows volume done (.log amount) fault := by
  rw [percentage_eq]
  constructor
  · intro failed
    split at failed
    · cases failed
    next some =>
    split at failed
    · next beyond =>
      cases failed
      exact .count some beyond
    next fits =>
    split at failed
    · cases failed
    next different =>
    split at failed
    · next beyond =>
      cases failed
      obtain ⟨mark, before, passed⟩ := (passes_iff (tenth_pos volume) done amount).mp different
      exact .percentage some (Nat.not_le.mp fits) before passed beyond
    · cases failed
  · intro overflows
    cases overflows with
    | count some beyond => rw [if_neg some, if_pos beyond]
    | @percentage _ mark some fits before passed beyond =>
      have different := (passes_iff (tenth_pos volume) done amount).mpr ⟨mark, before, passed⟩
      rw [if_neg some, if_neg (Nat.not_le.mpr fits), if_neg different, if_pos beyond]

theorem onMeter_eq_some_iff (m : ProgressMeter) (call : Call) (fault : Fault) :
    (call.onMeter.run m).1 = some fault ↔ Overflows m.volume m.done call fault := by
  cases call with
  | log amount =>
    rw [← percentage_eq_error_iff, Call.onMeter]
    have logged : (Call.log amount).steps.outcome m = _ := outcome_log amount m
    cases computed : percentage m.volume m.done amount with
    | ok answer =>
      rw [computed] at logged
      rw [Attempt.fault?_of_ok logged]
      simp
    | error other =>
      rw [computed] at logged
      rw [Attempt.fault?_of_error logged]
      simp
  | reset =>
    constructor
    · intro failed
      cases failed
    · intro overflows
      cases overflows

/-! ## Reports that are answered -/

theorem fits_concat_iff (calls : List Call) (call : Call) :
    Fits (calls ++ [call]) ↔ Fits calls ∧ sinceReset (calls ++ [call]) < Word.limit := by
  simp only [Fits, List.prefix_concat_iff]
  constructor
  · exact fun fits => ⟨fun front before => fits front (.inr before), fits _ (.inl rfl)⟩
  · rintro ⟨fits, last⟩ front (rfl | before)
    · exact last
    · exact fits front before

theorem onMeter_eq_none_iff {m : ProgressMeter} (moderate : m.volume * 100 < Word.limit) (call : Call) :
    (call.onMeter.run m).1 = none ↔
      m.volume = 0 ∨ ∀ amount, call = .log amount → m.done + amount < Word.limit := by
  -- no fault is one that overflows
  rw [Option.eq_none_iff_forall_ne_some]
  simp only [ne_eq, onMeter_eq_some_iff]
  constructor
  · intro calm
    by_cases none : m.volume = 0
    · exact .inl none
    · refine .inr fun amount here => Nat.not_le.mp fun beyond => ?_
      subst here
      exact calm _ (.count none beyond)
  · rintro answered fault overflows
    cases overflows with
    | count some beyond =>
      rcases answered with none | fits
      · exact some none
      · exact Nat.not_le.mpr (fits _ rfl) beyond
    -- what is multiplied is at most the volume
    | percentage _ _ _ _ beyond => omega

theorem Fits.concat_iff {calls : List Call} (fits : Fits calls) (call : Call) : Fits (calls ++ [call]) ↔
    ∀ amount, call = .log amount → sinceReset calls % Word.limit + amount < Word.limit := by
  rw [fits_concat_iff, and_iff_right fits, Nat.mod_eq_of_lt (fits calls List.prefix_rfl)]
  cases call with
  | log amount => simp [sinceReset_concat_log]
  | reset =>
    have positive : 0 < Word.limit := by decide
    simp [sinceReset_concat_reset, positive]

theorem calm_iff {task : String} {volume : Nat} (moderate : volume * 100 < Word.limit) (calls : List Call) :
    (∀ struck ∈ ((calls.mapM Call.onMeter).run (new task volume)).1, struck = none) ↔ volume = 0 ∨ Fits calls := by
  induction calls using List.reverseRecOn with
  | nil =>
    have start : Fits [] := fun front before => by
      rw [List.prefix_nil.mp before]
      decide
    exact ⟨fun _ => .inr start, fun _ _ member => nomatch member⟩
  | append_singleton front call inductionHypothesis =>
    -- the last call finds the count that the calls in front of it have left
    have last := onMeter_eq_none_iff (m := ⟨task, volume, sinceReset front % Word.limit⟩) moderate call
    rw [Lockstep.replies_mapM_concat, List.forall_mem_append, List.forall_mem_singleton, inductionHypothesis,
      run_calls, last]
    constructor
    · rintro ⟨none | fits, last⟩
      · exact .inl none
      · exact last.imp id (fits.concat_iff call).mpr
    · rintro (none | fits)
      · exact ⟨.inl none, .inl none⟩
      · have earlier := ((fits_concat_iff front call).mp fits).1
        exact ⟨.inr earlier, .inr ((earlier.concat_iff call).mp fits)⟩

/-- Whatever a meter is asked, it has counted what has been reported since the last reset, modulo its width, also
where a fault has struck. The next call fails where the count or the percentage does not fit the width, and nowhere
else. So a meter without a volume answers all calls, and one whose percentages all fit does so just if the units since
each reset fit the width. -/
theorem counting (task : String) (volume : Nat) (calls : List Call) : ∃ faults,
    (calls.mapM Call.onMeter).run (new task volume) =
      (faults, ⟨task, volume, sinceReset calls % Word.limit⟩) ∧
    (∀ call fault, (call.onMeter.run ⟨task, volume, sinceReset calls % Word.limit⟩).1 = some fault ↔
      Overflows volume (sinceReset calls % Word.limit) call fault) ∧
    (volume * 100 < Word.limit → ((∀ struck ∈ faults, struck = none) ↔ volume = 0 ∨ Fits calls)) :=
  ⟨_, Prod.ext rfl (run_calls task volume calls),
    fun call fault => onMeter_eq_some_iff ⟨task, volume, sinceReset calls % Word.limit⟩ call fault,
    fun moderate => calm_iff moderate calls⟩

/-- Two rounds with a reset between them, each of which fills the volume. -/
def rounds : List Call := [.log 40, .log 60, .reset, .log 100, .log 7]

theorem counting_rounds : 100 * 100 < Word.limit ∧ Fits rounds ∧ ∃ faults,
    (rounds.mapM Call.onMeter).run (new "rounds" 100) = (faults, ⟨"rounds", 100, 107⟩) ∧
    ∀ struck ∈ faults, struck = none := by
  have moderate : 100 * 100 < Word.limit := by decide
  have fits : Fits rounds := by
    have each : ∀ front ∈ rounds.inits, sinceReset front < Word.limit := by decide
    exact fun front before => each front ((List.mem_inits front rounds).mpr before)
  obtain ⟨faults, ran, -, calm⟩ := counting "rounds" 100 rounds
  exact ⟨moderate, fits, faults, ran, (calm moderate).mpr (.inr fits)⟩

/-- A report that makes the count wrap around fails, although it is counted. One of a tenth of a volume so great that
its percentage does not fit fails at once. -/
theorem report_struck :
    ((([.log Word.top, .log 1] : List Call).mapM Call.onMeter).run (new "beyond" 1)).1 =
      [none, some .additionOverflow] ∧
    ((([.log Word.top, .log 1] : List Call).mapM Call.onMeter).run (new "beyond" 1)).2.done = 0 ∧
    ((Call.log (Word.top / 10)).onMeter.run (new "great" Word.top)).1 = some .multiplicationOverflow := by
  decide +kernel

end BulkSync.ProgressMeter
