import BulkSync.Vertex.Program

/-! # Steps that succeed

A sequence succeeds only if each of its parts does, on the state that the part before it has left.
`Program.run_simulates` carries that over to whole programs: what the calls of one handler can be
answered by, call for call, the calls of another one can be too. -/

namespace BulkSync

theorem bind_eq_ok_iff {ε α β : Type} {first : Except ε α} {next : α → Except ε β} {b : β} :
    (first >>= next) = .ok b ↔ ∃ a, first = .ok a ∧ next a = .ok b := by
  cases first with
  | error fault => simp [bind, Except.bind]
  | ok a =>
    constructor
    · exact fun later => ⟨a, rfl, later⟩
    · rintro ⟨_, here, later⟩
      cases here
      exact later

@[simp] theorem mapError_ok {α ε ε' : Type} (f : ε → ε') (a : α) :
    (Except.ok a).mapError f = .ok a := rfl

@[simp] theorem mapError_error {α ε ε' : Type} (f : ε → ε') (error : ε) :
    (Except.error error : Except ε α).mapError f = .error (f error) := rfl

theorem forM_eq_ok {α : Type} {step : α → Except Fault Unit} {items : List α}
    (ran : items.forM step = .ok ()) : ∀ item ∈ items, step item = .ok () := by
  induction items with
  | nil => simp
  | cons head tail inductionHypothesis =>
    have both : (step head >>= fun _ => tail.forM step) = .ok () := ran
    obtain ⟨⟨⟩, first, rest⟩ := bind_eq_ok_iff.mp both
    intro item member
    rcases List.mem_cons.mp member with here | later
    · rw [here, first]
    · exact inductionHypothesis rest item later

theorem forM_of_ok {α : Type} {step : α → Except Fault Unit} {items : List α}
    (each : ∀ item ∈ items, step item = .ok ()) : items.forM step = .ok () := by
  induction items with
  | nil => rfl
  | cons head tail inductionHypothesis =>
    change (step head >>= fun _ => tail.forM step) = .ok ()
    rw [each head (List.mem_cons_self ..)]
    exact inductionHypothesis fun item member => each item (List.mem_cons_of_mem _ member)

theorem mapM_of_ok {α β : Type} {f : α → Except Fault β} {items : List α}
    (each : ∀ item ∈ items, ∃ result, f item = .ok result) : ∃ results, items.mapM f = .ok results := by
  induction items with
  | nil => exact ⟨[], rfl⟩
  | cons head tail inductionHypothesis =>
    obtain ⟨first, found⟩ := each head (List.mem_cons_self ..)
    obtain ⟨rest, foundToo⟩ := inductionHypothesis fun item member => each item (List.mem_cons_of_mem _ member)
    rw [List.mapM_cons, found]
    exact ⟨first :: rest, bind_eq_ok_iff.mpr ⟨first, rfl, bind_eq_ok_iff.mpr ⟨rest, foundToo, rfl⟩⟩⟩

theorem mapM_eq_ok {ε α β : Type} {f : α → Except ε β} {value : α → β} {items : List α}
    (each : ∀ item ∈ items, f item = .ok (value item)) : items.mapM f = .ok (items.map value) := by
  induction items with
  | nil => rfl
  | cons head tail inductionHypothesis =>
    rw [List.mapM_cons, each head (List.mem_cons_self ..),
      inductionHypothesis fun item member => each item (List.mem_cons_of_mem _ member)]
    rfl

/-- What holds of the state at the start and is kept by every step of a fold holds in the end. -/
theorem foldlM_invariant {α σ : Type} {step : σ → α → Except Fault σ} (holds : List α → σ → Prop)
    (kept : ∀ done s a t, holds done s → step s a = .ok t → holds (done ++ [a]) t) (done todo : List α)
    (s t : σ) (start : holds done s) (folded : todo.foldlM step s = .ok t) : holds (done ++ todo) t := by
  induction todo generalizing done s with
  | nil =>
    cases folded
    simpa using start
  | cons a todo inductionHypothesis =>
    obtain ⟨u, first, rest⟩ := bind_eq_ok_iff.mp folded
    simpa using inductionHypothesis (done ++ [a]) u (kept done s a u start first) rest

namespace Attempt

variable {σ τ α β : Type}

theorem outcome_bind_ok {step : Attempt σ α} {next : α → Attempt σ β} {s t : σ} {b : β}
    (ran : (step >>= next).outcome s = (.ok b, t)) :
    ∃ a u, step.outcome s = (.ok a, u) ∧ (next a).outcome u = (.ok b, t) := by
  rw [outcome_bind] at ran
  split at ran
  · next a u first => exact ⟨a, u, first, ran⟩
  · simp at ran

theorem outcome_bind_of_ok {step : Attempt σ α} {next : α → Attempt σ β} {s u : σ} {a : α}
    (first : step.outcome s = (.ok a, u)) : (step >>= next).outcome s = (next a).outcome u := by
  rw [outcome_bind, first]

theorem outcome_bind_of_error {step : Attempt σ α} {next : α → Attempt σ β} {s t : σ} {fault : Fault}
    (first : step.outcome s = (.error fault, t)) : (step >>= next).outcome s = (.error fault, t) := by
  rw [outcome_bind, first]

theorem outcome_replace (f : σ → Except Fault σ) (s : σ) :
    (replace f).outcome s = match f s with
      | .ok t => (.ok (), t)
      | .error fault => (.error fault, s) := rfl

theorem outcome_replace_ok {f : σ → Except Fault σ} {s t : σ} {u : Unit}
    (ran : (replace f).outcome s = (.ok u, t)) : f s = .ok t := by
  rw [outcome_replace] at ran
  split at ran
  · next found => rw [found, (Prod.mk.inj ran).2]
  · simp at ran

end Attempt

/-- What every call keeps is kept by a program that succeeds. -/
theorem Program.run_keeps {I : Interface} {σ α : Type} {handle : (c : I.Call) → Attempt σ (I.Answer c)}
    (holds : σ → Prop) (kept : ∀ c s answer t, holds s → (handle c).outcome s = (.ok answer, t) → holds t)
    (p : Program I α) (s : σ) (value : α) (t : σ) (start : holds s)
    (ran : (p.run handle).outcome s = (.ok value, t)) : holds t := by
  induction p generalizing s with
  | done a =>
    obtain ⟨rfl, rfl⟩ : a = value ∧ s = t := by simpa using ran
    exact start
  | fail fault => simp at ran
  | ask c next inductionHypothesis =>
    rw [run_ask] at ran
    obtain ⟨answer, u, called, rest⟩ := Attempt.outcome_bind_ok ran
    exact inductionHypothesis answer u (kept c s answer u start called) rest

/-- What every call keeps, whether it succeeds or fails, is kept by a program in any case. -/
theorem Program.run_always {I : Interface} {σ α : Type}
    {handle : (c : I.Call) → Attempt σ (I.Answer c)} (holds : σ → Prop)
    (kept : ∀ c s, holds s → holds ((handle c).outcome s).2) (p : Program I α) (s : σ) (start : holds s) :
    holds ((p.run handle).outcome s).2 := by
  induction p generalizing s with
  | done a => exact start
  | fail fault => exact start
  | ask c next inductionHypothesis =>
    have step := kept c s start
    rw [run_ask, Attempt.outcome_bind]
    split
    · next answer t called =>
      rw [called] at step
      exact inductionHypothesis answer t step
    · next fault t called =>
      rw [called] at step
      exact step

/-- Programs run against two handlers whose calls answer each other: what succeeds against the one
succeeds against the other with the same value, and the states stay related. -/
theorem Program.run_simulates {I : Interface} {σ τ α : Type}
    {handle : (c : I.Call) → Attempt σ (I.Answer c)} {reply : (c : I.Call) → Attempt τ (I.Answer c)}
    (related : σ → τ → Prop)
    (answers : ∀ c s t answer s', related s t → (handle c).outcome s = (.ok answer, s') →
      ∃ t', (reply c).outcome t = (.ok answer, t') ∧ related s' t')
    (p : Program I α) (s : σ) (t : τ) (value : α) (s' : σ) (start : related s t)
    (ran : (p.run handle).outcome s = (.ok value, s')) :
    ∃ t', (p.run reply).outcome t = (.ok value, t') ∧ related s' t' := by
  induction p generalizing s t with
  | done a =>
    obtain ⟨rfl, rfl⟩ : a = value ∧ s = s' := by simpa using ran
    exact ⟨t, rfl, start⟩
  | fail fault => simp at ran
  -- both programs are asked the same, and go on with the same answer
  | ask c next inductionHypothesis =>
    rw [run_ask] at ran
    obtain ⟨answer, u, called, rest⟩ := Attempt.outcome_bind_ok ran
    obtain ⟨v, replied, still⟩ := answers c s t answer u start called
    obtain ⟨t', finished, final⟩ := inductionHypothesis answer u v still rest
    exact ⟨t', by rw [run_ask, Attempt.outcome_bind_of_ok replied, finished], final⟩

end BulkSync
