import BulkSync.Proofs.Binary.Order
import BulkSync.Proofs.Paths.Histories

/-! # Offers of paths

A node that is offered one path after the other, and nothing else, is left with the nearest of them and of the path
it held, the first of those that are equally near (`Nearest`). One offer goes in front of the others
(`Nearest.taken`, `Nearest.passed`), so that what is left is known from any table on (`nearest_calls`). In which order
the paths are offered makes no difference to the distance (`least_offer`). -/

namespace BulkSync.PathTable

open Binary (less_eq_not_atMost less_of_less_of_atMost atMost_of_less atMost_refl atMost_trans)

/-! ## Reading -/

/-- The fields of a node, as they are read. -/
structure Reads (t : PathTable) (node : Nat) (entry : Entry) : Prop where
  distance : t.distance node = .ok entry.distance
  predecessor : t.predecessor node = .ok entry.predecessor?
  hops : t.hopsTo node = .ok (some entry.hops)

theorem Entry.predecessor_inj {first second : Entry} (same : first.predecessor? = second.predecessor?) :
    first.predecessor = second.predecessor := by
  rw [predecessor?, predecessor?] at same
  split at same
  · next none =>
    split at same
    · next noneToo => exact none.trans noneToo.symm
    · cases same
  · split at same
    · cases same
    · exact UInt64.toNat_inj.mp (Option.some.inj same)

theorem Reads.unique {t : PathTable} {node : Nat} {first second : Entry} (reads : t.Reads node first)
    (readsToo : t.Reads node second) : first = second := by
  have distance := reads.distance.symm.trans readsToo.distance
  have predecessor := reads.predecessor.symm.trans readsToo.predecessor
  have hops := reads.hops.symm.trans readsToo.hops
  simp only [Except.ok.injEq, Option.some.injEq] at distance predecessor hops
  have same := Entry.predecessor_inj predecessor
  cases first
  cases second
  simp_all

namespace Holds

variable {nodes node : Nat} {entries : Nat → Entry} {t : PathTable}

theorem reads (holds : Holds nodes entries t) (inside : node < nodes) : t.Reads node (entries node) :=
  ⟨holds.distance_eq inside, holds.predecessor_eq inside, holds.hopsTo_eq inside⟩

theorem inside_of_distance (holds : Holds nodes entries t) {distance : Binary64}
    (read : t.distance node = .ok distance) : node < nodes := by
  apply Nat.lt_of_not_le
  intro behind
  rw [PathTable.distance, holds.distances.read_behind behind] at read
  cases read

end Holds

/-! ## The nearest entry -/

/-- What is left of an entry held and of the entries offered for it: none of them is nearer, and of those that are
equally near it is the first. -/
structure Nearest (held : Entry) (offers : List Entry) (last : Entry) : Prop where
  least : ∀ entry ∈ held :: offers, last.distance.atMost entry.distance = true
  earliest : (last = held ∧ ∀ offer ∈ offers, offer.distance.less held.distance = false) ∨
    ∃ front back, offers = front ++ last :: back ∧ ∀ entry ∈ held :: front, last.distance.less entry.distance = true

namespace Nearest

variable {held offer last : Entry} {offers : List Entry}

theorem none (number : held.distance.isNaN = false) : Nearest held [] held where
  least := by simpa using atMost_refl number
  earliest := .inl ⟨rfl, by simp⟩

theorem taken (nearer : offer.distance.less held.distance = true) (nearest : Nearest offer offers last) :
    Nearest held (offer :: offers) last := by
  obtain ⟨least, earliest⟩ := nearest
  have below := least offer (by simp)
  constructor
  · intro entry member
    rcases List.mem_cons.mp member with rfl | later
    · exact atMost_trans below (atMost_of_less nearer)
    · exact least entry later
  · apply Or.inr
    rcases earliest with ⟨rfl, -⟩ | ⟨front, back, rfl, first⟩
    · exact ⟨[], offers, rfl, by simpa using nearer⟩
    · refine ⟨offer :: front, back, rfl, fun entry member => ?_⟩
      rcases List.mem_cons.mp member with rfl | later
      · exact less_of_less_of_atMost (first offer (by simp)) (atMost_of_less nearer)
      · exact first entry later

theorem passed (kept : held.distance.atMost offer.distance = true) (nearest : Nearest held offers last) :
    Nearest held (offer :: offers) last := by
  obtain ⟨least, earliest⟩ := nearest
  obtain ⟨number, numberToo, -⟩ := Binary.atMost_iff.mp kept
  constructor
  · intro entry member
    rcases List.mem_cons.mp member with rfl | later
    · exact least entry (by simp)
    rcases List.mem_cons.mp later with rfl | later
    · exact atMost_trans (least held (by simp)) kept
    · exact least entry (by simp [later])
  · rcases earliest with ⟨rfl, farther⟩ | ⟨front, back, rfl, first⟩
    · refine .inl ⟨rfl, fun entry member => ?_⟩
      rcases List.mem_cons.mp member with rfl | later
      · simp [less_eq_not_atMost numberToo number, kept]
      · exact farther entry later
    · refine .inr ⟨offer :: front, back, rfl, fun entry member => ?_⟩
      rcases List.mem_cons.mp member with rfl | later
      · exact first entry (by simp)
      rcases List.mem_cons.mp later with rfl | later
      · exact less_of_less_of_atMost (first held (by simp)) kept
      · exact first entry (by simp [later])

theorem member (nearest : Nearest held offers last) : last ∈ held :: offers := by
  rcases nearest.earliest with ⟨rfl, -⟩ | ⟨front, back, rfl, -⟩ <;> simp

theorem number (nearest : Nearest held offers last) : last.distance.isNaN = false :=
  (Binary.atMost_iff.mp (nearest.least held (by simp))).1

/-- To be nearer than what is left is to be nearer than all that came before. -/
theorem less_iff (nearest : Nearest held offers last) (distance : Binary64) :
    distance.less last.distance = true ↔ ∀ entry ∈ held :: offers, distance.less entry.distance = true := by
  constructor
  · intro nearer entry member
    exact less_of_less_of_atMost nearer (nearest.least entry member)
  · intro nearer
    exact nearer last nearest.member

/-- Entries offered in another order leave the same distance. -/
theorem sameNumber_of_perm (nearest : Nearest held offers last) {offersToo : List Entry} {lastToo : Entry}
    (nearestToo : Nearest held offersToo lastToo) (perm : offersToo.Perm offers) :
    lastToo.distance.sameNumber last.distance = true := by
  have same : (held :: offersToo).Perm (held :: offers) := perm.cons held
  apply Binary.sameNumber_of_atMost
  · exact nearestToo.least last (same.mem_iff.mpr nearest.member)
  · exact nearest.least lastToo (same.mem_iff.mp nearestToo.member)

end Nearest

/-! ## Calls that offer -/

/-- Whether a call, if it is about a node, offers it a path at a distance that is a number. -/
def Call.OffersTo (node : Nat) : Call → Prop
  | tryRelax other offer | relax other offer => other = node → offer.distance.isNaN = false ∧ 0 ≤ offer.hops
  | call => call.node ≠ node

instance (node : Nat) : DecidablePred (Call.OffersTo node)
  | .tryRelax other offer | .relax other offer =>
    inferInstanceAs (Decidable (other = node → offer.distance.isNaN = false ∧ 0 ≤ offer.hops))
  | .setSource _ | .compareExchange _ _ _ => inferInstanceAs (Decidable (_ ≠ node))

/-- The entries of the calls about a node, in order. -/
def offersTo (node : Nat) (calls : List Call) : List Entry := (calls.filter (·.node == node)).map (·.entry)

theorem offersTo_cons (node : Nat) (call : Call) (calls : List Call) : offersTo node (call :: calls) =
    if call.node = node then call.entry :: offersTo node calls else offersTo node calls := by
  by_cases here : call.node = node <;> simp [offersTo, here]

theorem Call.OffersTo.allowed {call : Call} (offers : call.OffersTo call.node) :
    call.entry.distance.isNaN = false ∧ 0 ≤ call.entry.hops := by
  cases call with
  | tryRelax node offer | relax node offer => exact offers rfl
  | setSource node | compareExchange node expected entry => exact absurd rfl offers

theorem Call.OffersTo.replaces_eq {call : Call} (offers : call.OffersTo call.node) {current : Binary64}
    (number : current.isNaN = false) : call.replaces current = call.entry.distance.less current := by
  rw [less_eq_not_atMost offers.allowed.1 number]
  cases call with
  | tryRelax node offer | relax node offer => rfl
  | setSource node | compareExchange node expected entry => exact absurd rfl offers

theorem Call.refusal_of_allowed {nodes : Nat} {call : Call} (inside : call.node < nodes)
    (nonnegative : 0 ≤ call.entry.hops) : call.refusal nodes = none :=
  (if_neg (GuardedCells.not_neg nonnegative)).trans (if_pos inside)

section Offered

variable {nodes node : Nat}

/-- The entry is replaced just if the one offered is nearer, and that is what is answered. -/
theorem Call.OffersTo.run {call : Call} (offers : call.OffersTo call.node) (inside : call.node < nodes)
    (entries : Nat → Entry) (number : (entries call.node).distance.isNaN = false) :
    (call.onEntries nodes).run entries =
      (call.answer (entries call.node).distance (call.entry.distance.less (entries call.node).distance),
        if call.entry.distance.less (entries call.node).distance then Function.update entries call.node call.entry
        else entries) := by
  rw [call.run_onEntries, refusal_of_allowed inside offers.allowed.2, offers.replaces_eq number]

theorem nearest_calls (inside : node < nodes) (calls : List Call) (offers : ∀ call ∈ calls, call.OffersTo node)
    (entries : Nat → Entry) (number : (entries node).distance.isNaN = false) :
    Nearest (entries node) (offersTo node calls) (((calls.mapM (Call.onEntries nodes)).run entries).2 node) := by
  induction calls generalizing entries with
  | nil => exact .none number
  | cons call calls inductionHypothesis =>
    have later := inductionHypothesis fun call member => offers call (List.mem_cons_of_mem _ member)
    have first := offers call (List.mem_cons_self ..)
    rw [Lockstep.run_mapM_cons, offersTo_cons]
    by_cases here : call.node = node
    · subst here
      have numberToo := first.allowed.1
      rw [if_pos rfl, first.run inside entries number]
      cases nearer : call.entry.distance.less (entries call.node).distance with
      | true =>
        have rest := later (Function.update entries call.node call.entry)
        rw [Function.update_self] at rest
        exact .taken nearer (rest numberToo)
      | false =>
        have kept : (entries call.node).distance.atMost call.entry.distance = true := by
          simpa [less_eq_not_atMost numberToo number] using nearer
        exact .passed kept (later entries number)
    · have kept : ((call.onEntries nodes).run entries).2 node = entries node := by
        rw [call.onEntries_entry, if_neg fun changed => here changed.1]
      rw [if_neg here, ← kept]
      exact later _ (by rwa [kept])

end Offered

namespace Holds

variable {nodes node : Nat} {entries : Nat → Entry} {t : PathTable}

theorem reads_nearest (holds : Holds nodes entries t) (inside : node < nodes)
    (number : (entries node).distance.isNaN = false) {calls : List Call}
    (offers : ∀ call ∈ calls, call.OffersTo node) :
    ∃ last, ((calls.mapM Call.onTable).run t).2.Reads node last ∧ Nearest (entries node) (offersTo node calls) last :=
  ⟨_, (holds.answered_calls calls).2.reads inside, nearest_calls inside calls offers entries number⟩

/-- An offer is taken just if it is nearer than all that came before. -/
theorem answer_offer (holds : Holds nodes entries t) (inside : node < nodes)
    (number : (entries node).distance.isNaN = false) {front : List Call} {offer : Entry}
    (offers : ∀ call ∈ front, call.OffersTo node) (last : (Call.relax node offer).OffersTo node) :
    ((Call.relax node offer).onTable.run ((front.mapM Call.onTable).run t).2).1 =
      .taken (decide (∀ entry ∈ entries node :: offersTo node front, offer.distance.less entry.distance = true)) := by
  have nearest := nearest_calls inside front offers entries number
  have offered : (Call.relax node offer).OffersTo (Call.relax node offer).node := last
  rw [((holds.answered_calls front).2.answered _).1.1, offered.run inside _ nearest.number]
  apply congrArg Answer.taken
  rw [Bool.eq_iff_iff, decide_eq_true_iff, ← nearest.less_iff]
  rfl

end Holds

/-- From any table on, a node that holds a number and is only offered paths is left with the nearest, the first of
those that are equally near. A call says that it has been taken just if its offer is nearer than what the node held
and all earlier offers. In another order the same offers leave the same distance. -/
theorem least_offer {nodes node : Nat} {t : PathTable} (reachable : Reachable nodes t) {held : Entry}
    (reads : t.Reads node held) (number : held.distance.isNaN = false) (calls : List Call)
    (offers : ∀ call ∈ calls, call.OffersTo node) : ∃ answers after last,
      (calls.mapM Call.onTable).run t = (answers, after) ∧ after.Reads node last ∧
      Nearest held (offersTo node calls) last ∧
      (∀ front offer back, calls = front ++ .relax node offer :: back → answers[front.length]? =
        some (.taken (decide (∀ entry ∈ held :: offersTo node front, offer.distance.less entry.distance = true)))) ∧
      ∀ callsToo : List Call, (∀ call ∈ callsToo, call.OffersTo node) →
        (offersTo node callsToo).Perm (offersTo node calls) → ∃ answersToo afterToo lastToo,
          (callsToo.mapM Call.onTable).run t = (answersToo, afterToo) ∧ afterToo.Reads node lastToo ∧
          lastToo.distance.sameNumber last.distance = true := by
  obtain ⟨entries, holds⟩ := reachable.holds
  have inside := holds.inside_of_distance reads.distance
  obtain rfl := (holds.reads inside).unique reads
  obtain ⟨last, left, nearest⟩ := holds.reads_nearest inside number offers
  refine ⟨_, _, last, rfl, left, nearest, ?_, ?_⟩
  · rintro front offer back rfl
    have earlier : ∀ call ∈ front, call.OffersTo node := fun call member => offers call (by simp [member])
    have answer := holds.answer_offer inside number earlier (offers (.relax node offer) (by simp))
    exact (Lockstep.reply_mapM front back _ t).trans (congrArg some answer)
  · intro callsToo offersToo perm
    obtain ⟨lastToo, leftToo, nearestToo⟩ := holds.reads_nearest inside number offersToo
    exact ⟨_, _, lastToo, rfl, leftToo, nearest.sameNumber_of_perm nearestToo perm⟩

/-- A node is offered a path at five, at three from two sides, and at four; in between other nodes change. -/
def race : List Call :=
  [.relax 3 ⟨.ofInt 5, 0, 1⟩, .setSource 0, .relax 3 ⟨.ofInt 3, 1, 2⟩, .tryRelax 2 ⟨.nan, 0, 1⟩,
    .relax 3 ⟨.ofInt 3, 2, 1⟩, .compareExchange 7 (.ofInt 1) ⟨.ofInt 1, 0, -1⟩, .relax 3 ⟨.ofInt 4, 2, 1⟩]

theorem least_offer_race : Reachable 4 (new 4) ∧ (new 4).Reads 3 .unreached ∧
    Entry.unreached.distance.isNaN = false ∧ (∀ call ∈ race, call.OffersTo 3) ∧ ∃ answers after,
      (race.mapM Call.onTable).run (new 4) = (answers, after) ∧ after.Reads 3 ⟨.ofInt 3, 1, 2⟩ ∧
      Nearest .unreached (offersTo 3 race) ⟨.ofInt 3, 1, 2⟩ ∧
      answers[0]? = some (.taken true) ∧ answers[4]? = some (.taken false) := by
  have start : Reachable 4 (new 4) := ⟨[], rfl⟩
  have reads : (new 4).Reads 3 .unreached := (holds_new 4).reads (by decide)
  have number : Entry.unreached.distance.isNaN = false := by decide
  have offers : ∀ call ∈ race, call.OffersTo 3 := by decide +kernel
  obtain ⟨answers, after, last, ran, left, nearest, answer, -⟩ := least_offer start reads number race offers
  have held : ((race.mapM (Call.onEntries 4)).run fun _ => .unreached).2 3 = ⟨.ofInt 3, 1, 2⟩ := by decide +kernel
  have third := ((holds_new 4).answered_calls race).2.reads (show 3 < 4 by decide)
  rw [ran, held] at third
  obtain rfl := left.unique third
  refine ⟨start, reads, number, offers, answers, after, ran, left, nearest, ?_, ?_⟩
  · exact (answer [] _ _ rfl).trans (by decide +kernel)
  · exact (answer (race.take 4) _ _ rfl).trans (by decide +kernel)

end BulkSync.PathTable
