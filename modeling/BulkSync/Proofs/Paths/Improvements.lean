import BulkSync.Proofs.Paths.Offers
import Mathlib.Data.List.Induction

/-! # Improvements

An offer is refused if the distance held is at most the one offered. So it is taken if it is nearer, but also if one
of the two is not a number (`Holds.published_iff`): the distance of a node is none just if the last call about it
offered none (`isNaN_calls`). While a node holds a number and is only offered numbers its distance never rises, and
neither do the distances that are reported (`Holds.descends`). -/

namespace BulkSync

theorem Binary.not_atMost {f : Format} (x y : Binary f) : (!x.atMost y) = (y.less x || x.isNaN || y.isNaN) := by
  cases number : x.isNaN with
  | true => simp [atMost, number]
  | false =>
    cases numberToo : y.isNaN with
    | true => simp [atMost, numberToo]
    | false => simp [less_eq_not_atMost numberToo number]

namespace PathTable

/-- Whether a call makes a node a source or offers it a path. -/
def Call.Proposes : Call → Prop
  | setSource _ => True
  | tryRelax _ offer | relax _ offer => 0 ≤ offer.hops
  | compareExchange _ _ _ => False

instance : DecidablePred Call.Proposes
  | .setSource _ => inferInstanceAs (Decidable True)
  | .tryRelax _ offer | .relax _ offer => inferInstanceAs (Decidable (0 ≤ offer.hops))
  | .compareExchange _ _ _ => inferInstanceAs (Decidable False)

theorem Call.Proposes.nonnegative {call : Call} (proposes : call.Proposes) : 0 ≤ call.entry.hops := by
  cases call with
  | setSource node => exact show 0 ≤ Entry.source.hops by decide
  | tryRelax node offer | relax node offer => exact proposes
  | compareExchange node expected entry => cases proposes

theorem offersTo_append (node : Nat) (front back : List Call) :
    offersTo node (front ++ back) = offersTo node front ++ offersTo node back := by
  simp [offersTo]

/-! ## What is no number -/

section Proposed

variable {nodes node : Nat} {call : Call}

theorem Call.Proposes.replaces_iff (proposes : call.Proposes) (stored : Binary64) :
    call.replaces stored = true ↔ call = .setSource call.node ∨ call.entry.distance.less stored = true ∨
      stored.isNaN = true ∨ call.entry.distance.isNaN = true := by
  cases call with
  | setSource node => simp [replaces, Call.node]
  | tryRelax node offer | relax node offer => simp [replaces, Call.entry, Binary.not_atMost, or_assoc]
  | compareExchange node expected entry => cases proposes

theorem isNaN_call (inside : node < nodes) (here : call.node = node) (proposes : call.Proposes)
    (entries : Nat → Entry) :
    (((call.onEntries nodes).run entries).2 node).distance.isNaN = call.entry.distance.isNaN := by
  subst here
  rw [call.run_onEntries, Call.refusal_of_allowed inside proposes.nonnegative]
  dsimp only
  split
  · rw [Function.update_self]
  · next kept =>
    rw [proposes.replaces_iff] at kept
    simp only [not_or, Bool.not_eq_true] at kept
    rw [kept.2.2.1, kept.2.2.2]

/-- What a node holds is no number just if the last call about it offered none. -/
theorem isNaN_calls (inside : node < nodes) (calls : List Call)
    (proposes : ∀ call ∈ calls, call.node = node → call.Proposes) (entries : Nat → Entry) :
    (((calls.mapM (Call.onEntries nodes)).run entries).2 node).distance.isNaN =
      ((offersTo node calls).getLast?.getD (entries node)).distance.isNaN := by
  induction calls using List.reverseRecOn with
  | nil => rfl
  | append_singleton calls call inductionHypothesis =>
    have earlier := inductionHypothesis fun call member => proposes call (by simp [member])
    rw [Lockstep.state_mapM_concat, offersTo_append, offersTo_cons]
    by_cases here : call.node = node
    · rw [if_pos here]
      simpa [offersTo] using isNaN_call inside here (proposes call (by simp) here) _
    · rw [if_neg here]
      simpa [offersTo, call.onEntries_entry, here] using earlier

end Proposed

/-! ## What is reported -/

/-- The distance that an answer reports. -/
def Answer.reported : Answer → Option Binary64
  | .relaxed (.improved distance) | .relaxed (.unimproved distance) => some distance
  | _ => none

/-- The distances that are reported of a node, in order. -/
def reportsOf (node : Nat) (calls : List Call) (answers : List Answer) : List Binary64 :=
  ((calls.zip answers).filter (·.1.node == node)).filterMap (·.2.reported)

theorem reportsOf_cons (node : Nat) (call : Call) (calls : List Call) (answer : Answer) (answers : List Answer) :
    reportsOf node (call :: calls) (answer :: answers) =
      (if call.node = node then answer.reported.toList else []) ++ reportsOf node calls answers := by
  by_cases here : call.node = node
  · cases reported : answer.reported <;> simp [reportsOf, here, reported]
  · simp [reportsOf, here]

theorem Call.OffersTo.reported {call : Call} (offers : call.OffersTo call.node) (stored : Binary64) (taken : Bool) :
    (call.answer stored taken).reported = none ∨ (call.answer stored taken).reported = some stored := by
  cases call with
  | tryRelax node offer => cases taken <;> exact .inr rfl
  | relax node offer => exact .inl rfl
  | setSource node | compareExchange node expected entry => exact absurd rfl offers

/-- What is reported of a node has never been below it before, and never rises. -/
theorem reports_fall {nodes node : Nat} (inside : node < nodes) (calls : List Call)
    (offers : ∀ call ∈ calls, call.OffersTo node) (entries : Nat → Entry)
    (number : (entries node).distance.isNaN = false) :
    let reports := reportsOf node calls ((calls.mapM (Call.onEntries nodes)).run entries).1
    (∀ report ∈ reports, report.atMost (entries node).distance = true) ∧
      reports.Pairwise fun earlier later => later.atMost earlier = true := by
  induction calls generalizing entries with
  | nil => exact ⟨by simp [reportsOf], List.Pairwise.nil⟩
  | cons call calls inductionHypothesis =>
    have first := offers call (List.mem_cons_self ..)
    have nearest := nearest_calls inside [call] (by simpa using first) entries number
    rw [Lockstep.run_mapM_cons] at nearest
    obtain ⟨below, falls⟩ := inductionHypothesis (fun call member => offers call (List.mem_cons_of_mem _ member))
      ((call.onEntries nodes).run entries).2 nearest.number
    have stored := nearest.least (entries node) (List.mem_cons_self ..)
    have later := fun report member => Binary.atMost_trans (below report member) stored
    have head : call.node = node → ((call.onEntries nodes).run entries).1.reported = none ∨
        ((call.onEntries nodes).run entries).1.reported = some (entries node).distance := by
      rintro rfl
      rw [first.run inside entries number]
      exact first.reported _ _
    rw [Lockstep.run_mapM_cons, reportsOf_cons]
    by_cases here : call.node = node
    · rcases head here with silent | reported
      · simpa only [here, silent, if_true, Option.toList_none, List.nil_append] using ⟨later, falls⟩
      · simp only [here, reported, if_true, Option.toList_some, List.singleton_append, List.forall_mem_cons,
          List.pairwise_cons]
        exact ⟨⟨Binary.atMost_refl number, later⟩, later, falls⟩
    · simpa only [here, if_false, List.nil_append] using ⟨later, falls⟩

/-! ## From one time to another -/

/-- What is relied on from a time at which a node is at a distance until calls have been made. -/
structure Descends (node : Nat) (t : PathTable) (stored : Binary64) (calls : List Call) : Prop where
  falls : ∃ last, ((calls.mapM Call.onTable).run t).2.distance node = .ok last ∧ last.atMost stored = true
  reports : (reportsOf node calls ((calls.mapM Call.onTable).run t).1).Pairwise fun earlier later =>
    later.atMost earlier = true
  improves : ∀ front call back, calls = front ++ call :: back → call.node = node →
    ∃ distance, ((front.mapM Call.onTable).run t).2.distance node = .ok distance ∧
      ((calls.mapM Call.onTable).run t).1[front.length]?.map Answer.published =
        some (call.entry.distance.less distance)

namespace Holds

variable {nodes node : Nat} {entries : Nat → Entry} {t : PathTable}

theorem published_iff (holds : Holds nodes entries t) {call : Call} (inside : call.node < nodes)
    (proposes : call.Proposes) : (call.onTable.run t).1.published = true ↔
      call = .setSource call.node ∨ call.entry.distance.less (entries call.node).distance = true ∨
        (entries call.node).distance.isNaN = true ∨ call.entry.distance.isNaN = true := by
  rw [(holds.answered call).1.1, call.run_onEntries, Call.refusal_of_allowed inside proposes.nonnegative]
  dsimp only
  rw [call.published_answer, proposes.replaces_iff]

theorem descends (holds : Holds nodes entries t) (inside : node < nodes)
    (number : (entries node).distance.isNaN = false) {calls : List Call}
    (offers : ∀ call ∈ calls, call.OffersTo node) : Descends node t (entries node).distance calls where
  falls := by
    obtain ⟨last, reads, nearest⟩ := holds.reads_nearest inside number offers
    exact ⟨last.distance, reads.distance, nearest.least _ (List.mem_cons_self ..)⟩
  reports := by
    rw [(holds.answered_calls calls).1]
    exact (reports_fall inside calls offers entries number).2
  improves := by
    rintro front call back rfl rfl
    have nearest := nearest_calls inside front (fun call member => offers call (by simp [member])) entries number
    have later := (holds.answered_calls front).2
    have offered := offers call (by simp)
    refine ⟨_, later.distance_eq inside, ?_⟩
    rw [Lockstep.reply_mapM, Option.map_some, (later.answered call).1.1, offered.run inside _ nearest.number,
      ← offered.replaces_eq nearest.number, call.published_answer]

end Holds

/-- From the first call on, each distance is a number just if the last call about its node offered one. The next call
is then taken if it makes the node a source or offers a nearer distance, or if one of the two distances is none. If the
node holds a number and is only offered numbers, then until it is made a source again its distance never rises, no
report of it is above an earlier one, and a call is taken just if it offers a nearer distance. -/
theorem only_improves {nodes node : Nat} (inside : node < nodes) (calls : List Call)
    (proposes : ∀ call ∈ calls, call.node = node → call.Proposes) : ∃ answers t stored,
      (calls.mapM Call.onTable).run (new nodes) = (answers, t) ∧ t.distance node = .ok stored ∧
      stored.isNaN = ((offersTo node calls).getLast?.getD .unreached).distance.isNaN ∧
      (∀ call : Call, call.node = node → call.Proposes → ((call.onTable.run t).1.published = true ↔
        call = .setSource node ∨ call.entry.distance.less stored = true ∨
          stored.isNaN = true ∨ call.entry.distance.isNaN = true)) ∧
      (stored.isNaN = false → ∀ stretch : List Call, (∀ call ∈ stretch, call.OffersTo node) →
        Descends node t stored stretch) := by
  have holds := ((holds_new nodes).answered_calls calls).2
  refine ⟨_, _, _, rfl, holds.distance_eq inside, isNaN_calls inside calls proposes _, ?_, ?_⟩
  · rintro call rfl proposesToo
    exact holds.published_iff inside proposesToo
  · intro number stretch offers
    exact holds.descends inside number offers

/-- A node is offered five, no number and seven. -/
def relapse : List Call :=
  [.setSource 0, .tryRelax 1 ⟨.ofInt 5, 0, 1⟩, .relax 1 ⟨.nan, 0, 1⟩, .tryRelax 1 ⟨.ofInt 7, 0, 1⟩]

/-- From then on it is offered longer and shorter paths. -/
def recovery : List Call :=
  [.tryRelax 1 ⟨.ofInt 8, 0, 1⟩, .relax 1 ⟨.ofInt 6, 0, 1⟩, .tryRelax 1 ⟨.infinite true, 0, 1⟩]

theorem only_improves_relapse : 1 < 2 ∧ (∀ call ∈ relapse, call.node = 1 → call.Proposes) ∧ ∃ answers t,
    (relapse.mapM Call.onTable).run (new 2) = (answers, t) ∧ t.distance 1 = .ok (.ofInt 7) ∧
    Descends 1 t (.ofInt 7) recovery := by
  have inside : 1 < 2 := by decide
  have proposes : ∀ call ∈ relapse, call.node = 1 → call.Proposes := by decide +kernel
  obtain ⟨answers, t, stored, ran, distance, -, -, descends⟩ := only_improves inside relapse proposes
  have held : ((relapse.mapM (Call.onEntries 2)).run fun _ => .unreached).2 1 = ⟨.ofInt 7, 0, 1⟩ := by decide +kernel
  have seven := (((holds_new 2).answered_calls relapse).2.reads inside).distance
  rw [ran, held] at seven
  cases distance.symm.trans seven
  exact ⟨inside, proposes, answers, t, ran, seven, descends (by decide +kernel) recovery (by decide +kernel)⟩

/-- A node at two is offered no number, and then seven. -/
def lapse : List Call := [.tryRelax 0 ⟨.ofInt 2, 0, 1⟩, .tryRelax 0 ⟨.nan, 0, 1⟩, .relax 0 ⟨.ofInt 7, 0, 1⟩]

/-- An offer of no number is taken although it is not nearer, and so is whatever is offered next. In the end the
distance has risen. -/
theorem no_number_taken : ∃ t, (lapse.mapM Call.onTable).run (new 1) =
      ([.relaxed (.improved (.infinite false)), .relaxed (.improved (.ofInt 2)), .taken true], t) ∧
    (Binary.nan : Binary64).less (.ofInt 2) = false ∧ t.distance 0 = .ok (.ofInt 7) ∧
    (Binary.ofInt 2 : Binary64).less (.ofInt 7) = true := by
  obtain ⟨answers, holds⟩ := (holds_new 1).answered_calls lapse
  have answered : ((lapse.mapM (Call.onEntries 1)).run fun _ => .unreached).1 =
      [.relaxed (.improved (.infinite false)), .relaxed (.improved (.ofInt 2)), .taken true] := by decide +kernel
  have held : ((lapse.mapM (Call.onEntries 1)).run fun _ => .unreached).2 0 = ⟨.ofInt 7, 0, 1⟩ := by decide +kernel
  have seven := holds.distance_eq (show 0 < 1 by decide)
  rw [held] at seven
  refine ⟨((lapse.mapM Call.onTable).run (new 1)).2, ?_, by decide +kernel, seven, by decide +kernel⟩
  rw [← answered, ← answers, Prod.eta]

end PathTable
end BulkSync
