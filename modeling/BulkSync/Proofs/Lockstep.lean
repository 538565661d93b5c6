import Mathlib.Control.Basic

/-! # Machines that are asked the same

A machine replies to a request and goes on to another state. What one request keeps, any requests keep, one
after the other: a relation between the states of two machines that reply alike, or a property of one. -/

namespace BulkSync.Lockstep

variable {ρ α σ τ : Type} {first : ρ → StateM σ α} {second : ρ → StateM τ α}

theorem run_mapM_cons (request : ρ) (rest : List ρ) (s : σ) :
    ((request :: rest).mapM first).run s =
      (((first request).run s).1 :: ((rest.mapM first).run ((first request).run s).2).1,
        ((rest.mapM first).run ((first request).run s).2).2) := by
  rw [List.mapM_cons]
  rfl

theorem length_mapM (requests : List ρ) (s : σ) : ((requests.mapM first).run s).1.length = requests.length := by
  induction requests generalizing s with
  | nil => rfl
  | cons request rest inductionHypothesis =>
    rw [run_mapM_cons, List.length_cons, List.length_cons, inductionHypothesis]

theorem run_mapM_append (front back : List ρ) (s : σ) :
    ((front ++ back).mapM first).run s =
      (((front.mapM first).run s).1 ++ ((back.mapM first).run ((front.mapM first).run s).2).1,
        ((back.mapM first).run ((front.mapM first).run s).2).2) := by
  induction front generalizing s with
  | nil => rfl
  | cons request rest inductionHypothesis =>
    rw [List.cons_append, run_mapM_cons, run_mapM_cons, inductionHypothesis]
    rfl

theorem state_mapM_concat (front : List ρ) (request : ρ) (s : σ) :
    (((front ++ [request]).mapM first).run s).2 = ((first request).run ((front.mapM first).run s).2).2 := by
  rw [run_mapM_append, run_mapM_cons]
  rfl

theorem replies_mapM_concat (front : List ρ) (request : ρ) (s : σ) :
    (((front ++ [request]).mapM first).run s).1 =
      ((front.mapM first).run s).1 ++ [((first request).run ((front.mapM first).run s).2).1] := by
  rw [run_mapM_append, run_mapM_cons]
  rfl

/-- A request is replied to from the state that the requests in front of it have left. -/
theorem reply_mapM (front back : List ρ) (request : ρ) (s : σ) :
    (((front ++ request :: back).mapM first).run s).1[front.length]? =
      some ((first request).run ((front.mapM first).run s).2).1 := by
  rw [run_mapM_append, run_mapM_cons]
  simp [length_mapM]

theorem alike_mapM {Matches : σ → τ → Prop}
    (step : ∀ request s t, Matches s t →
      ((first request).run s).1 = ((second request).run t).1 ∧
        Matches ((first request).run s).2 ((second request).run t).2)
    (requests : List ρ) {s : σ} {t : τ} (start : Matches s t) :
    ((requests.mapM first).run s).1 = ((requests.mapM second).run t).1 ∧
      Matches ((requests.mapM first).run s).2 ((requests.mapM second).run t).2 := by
  induction requests generalizing s t with
  | nil => exact ⟨rfl, start⟩
  | cons request rest inductionHypothesis =>
    obtain ⟨reply, related⟩ := step request s t start
    obtain ⟨replies, final⟩ := inductionHypothesis related
    rw [run_mapM_cons, run_mapM_cons, reply, replies]
    exact ⟨rfl, final⟩

theorem keeps_mapM {Holds : σ → Prop}
    (step : ∀ request s, Holds s → Holds ((first request).run s).2) (requests : List ρ) {s : σ}
    (start : Holds s) : Holds ((requests.mapM first).run s).2 := by
  induction requests generalizing s with
  | nil => exact start
  | cons request rest inductionHypothesis =>
    rw [run_mapM_cons]
    exact inductionHypothesis (step request s start)

end BulkSync.Lockstep
