import BulkSync.Proofs.Message.Compaction

/-! # Rounds of reduced delivery

Messages that are folded as they are sent go to one side of the mailboxes, and are read from the other one. A round
can be run just if every target is a node and no fold fails (`Holds.runs_iff`). Until its delivery the side for
reading is as it was. After that each node reads the fold of what it was sent in this round, in the order of sending,
or nothing (`Holds.condenses`). What earlier rounds have left on either side makes no difference (`isolation`). -/

namespace BulkSync

open Rows (itemsOf itemsOf_append itemsOf_singleton)

variable {M : Type}

/-! ## What is sent in a round -/

def Posting.letter? : Posting M → Option (Nat × M)
  | .send target message => some (target, message)
  | .deposit _ _ => none

theorem filterMap_letter_sends (letters : List (Nat × M)) :
    (letters.map fun letter => Posting.send letter.1 letter.2).filterMap Posting.letter? = letters := by
  rw [List.filterMap_map]
  exact List.filterMap_some

namespace Round

/-- The messages of a round with their targets, in the order of sending. -/
def posted (round : Round M) : List (Nat × M) := round.postings.filterMap Posting.letter?

/-- The messages to a node, in the order of sending. -/
def postedTo (round : Round M) (target : Nat) : List M := itemsOf round.posted target

/-- All messages are to nodes, and the fold of those to one node does not fail. -/
structure Foldable (nodes : Nat) (reducer : Reducer M) (round : Round M) : Prop where
  targets : ∀ letter ∈ round.posted, letter.1 < nodes
  folds : ∀ target < nodes, ∃ value, reducer.foldFrom reducer.identity (round.postedTo target) = .ok value

/-- What a round leaves: each node reads the fold of what it was sent in this round, or nothing. -/
structure Condenses [Element M] (nodes : Nat) (reducer : Reducer M) (round : Round M) (mail : Mail M) : Prop where
  hasMessages : ∀ target < nodes, mail.hasMessages target = true ↔ round.postedTo target ≠ []
  folded : ∀ target < nodes, round.postedTo target ≠ [] → ∃ value,
    reducer.foldFrom reducer.identity (round.postedTo target) = .ok value ∧
      (mail.messages target).Yields [value]
  nothing : ∀ target < nodes, round.postedTo target = [] → (mail.messages target).Yields []

end Round

namespace Mail

variable [Element M]

/-- The side from which messages are read is the same, with its values and its flags. -/
def SameReceiving (mail other : Mail M) : Prop :=
  ∃ r s, mail = .reduced r ∧ other = .reduced s ∧ s.receiving = r.receiving

/-! ## Before delivery -/

theorem postAll_reduced (r : ReducedMail M) (postings : List (Posting M)) :
    (reduced r).postAll postings = (reduced r).foldAll (postings.filterMap Posting.letter?) := by
  induction postings generalizing r with
  | nil => rfl
  | cons posting postings inductionHypothesis =>
    cases posting with
    | deposit slot letters => exact inductionHypothesis r
    | send target message =>
      have folds : (reduced r).fold target message = r.send target message >>= fun s => .ok (.reduced s) := rfl
      change ((reduced r).fold target message >>= (·.postAll postings)) =
        (reduced r).fold target message >>= (·.foldAll (postings.filterMap Posting.letter?))
      rw [folds]
      cases r.send target message with
      | error fault => rfl
      | ok sent => exact inductionHypothesis sent

variable {nodes slots : Nat} {reducer : Reducer M} {old letters : List (Nat × M)} {r : ReducedMail M}
  {mail after other : Mail M} {round : Round M}

/-- Letters can be folded just if their targets are nodes and no fold of all letters to one node fails. -/
theorem foldAll_succeeds_iff (same : r.reducer = reducer) (holds : r.sending.Holds reducer nodes letters)
    (extra : List (Nat × M)) : (∃ full, (reduced r).foldAll extra = .ok full) ↔
      (∀ letter ∈ extra, letter.1 < nodes) ∧
        ∀ target < nodes, ∃ value, reducer.foldFrom reducer.identity (itemsOf (letters ++ extra) target) =
          .ok value := by
  constructor
  · rintro ⟨full, ran⟩
    obtain ⟨folded, -, -, -, held⟩ := sendAll_holds same holds extra ran
    exact ⟨fun letter member => held.inside letter (List.mem_append_right _ member),
      fun target inside => ⟨_, held.peek inside⟩⟩
  · rintro ⟨targets, folds⟩
    induction extra generalizing r letters with
    | nil => exact ⟨_, rfl⟩
    | cons letter extra inductionHypothesis =>
      obtain ⟨target, message⟩ := letter
      have inside : target < nodes := targets (target, message) (List.mem_cons_self ..)
      -- the fold of the target goes on from the value so far, with this message first
      obtain ⟨value, folded⟩ := folds target inside
      rw [← List.singleton_append, itemsOf_append, itemsOf_append, itemsOf_singleton, if_pos rfl,
        Reducer.foldFrom_append, holds.peek inside] at folded
      obtain ⟨current, start, rest⟩ := bind_eq_ok_iff.mp folded
      cases start
      obtain ⟨next, reduces, -⟩ := bind_eq_ok_iff.mp rest
      have reduced : r.reducer.reduce (r.sending.values.peek target) message = .ok next := same ▸ reduces
      obtain ⟨sent, sends⟩ := ReducedMail.send_succeeds holds inside reduced
      obtain ⟨holdsNext, -, sameNext⟩ := ReducedMail.Holds.send same holds sends
      obtain ⟨full, ran⟩ := inductionHypothesis sameNext holdsNext
        (fun letter member => targets letter (List.mem_cons_of_mem _ member))
        fun target inside => by simpa using folds target inside
      refine ⟨full, ?_⟩
      rw [foldAll, List.foldlM_cons, fold, sends]
      exact ran

/-! ## Delivery -/

theorem Holds.eq_reduced (holds : Holds nodes slots old (some reducer) mail) : ∃ r, mail = .reduced r ∧
    r.reducer = reducer ∧ r.sending = ReducedMail.blank nodes reducer ∧ r.receiving.Holds reducer nodes old := by
  cases holds with
  | reduced same blank holds => exact ⟨_, rfl, same, blank, holds⟩

/-- Mailboxes that reduce have no slots. -/
theorem Holds.forTasks (holds : Holds nodes slots old (some reducer) mail) (tasks : Nat) :
    Holds nodes tasks old (some reducer) mail := by
  cases holds with
  | reduced same blank holds => exact .reduced same blank holds

/-- Mailboxes that hold the same letters are equal. -/
theorem Holds.unique (holds : Holds nodes slots old (some reducer) mail)
    (holdsToo : Holds nodes slots old (some reducer) other) : mail = other := by
  obtain ⟨r, rfl, same, blank, receives⟩ := holds.eq_reduced
  obtain ⟨s, rfl, sameToo, blankToo, receivesToo⟩ := holdsToo.eq_reduced
  have received : r.receiving = s.receiving := receives.ext receivesToo fun _ _ => ⟨rfl, rfl⟩
  cases r
  cases s
  simp_all

theorem Holds.runs_iff (holds : Holds nodes slots old (some reducer) mail) :
    (∃ after, round.run mail = .ok after) ↔ round.Foldable nodes reducer := by
  obtain ⟨r, rfl, same, blank, receives⟩ := holds.eq_reduced
  have sending : r.sending.Holds reducer nodes [] := blank ▸ MailSide.holds_blank reducer nodes
  have posts : (∃ full, (Mail.reduced r).foldAll round.posted = .ok full) ↔ round.Foldable nodes reducer := by
    rw [foldAll_succeeds_iff same sending]
    exact ⟨fun ⟨targets, folds⟩ => ⟨targets, folds⟩, fun ⟨targets, folds⟩ => ⟨targets, folds⟩⟩
  rw [← posts, Round.run, Mail.prepare, postAll_reduced]
  constructor
  · rintro ⟨after, ran⟩
    obtain ⟨full, folds, -⟩ := bind_eq_ok_iff.mp ran
    exact ⟨full, folds⟩
  · rintro ⟨full, folds⟩
    obtain ⟨sent, rfl, -⟩ := sendAll_holds same sending round.posted folds
    exact ⟨_, bind_eq_ok_iff.mpr ⟨_, folds, rfl⟩⟩

/-- After a round the mailboxes hold what was sent in it, and the side that was read before is blank. -/
theorem Holds.ran (holds : Holds nodes slots old (some reducer) mail) (ran : round.run mail = .ok after) :
    Holds nodes slots round.posted (some reducer) after := by
  obtain ⟨r, rfl, same, blank, receives⟩ := holds.eq_reduced
  have sending : r.sending.Holds reducer nodes [] := blank ▸ MailSide.holds_blank reducer nodes
  rw [Round.run, Mail.prepare, postAll_reduced] at ran
  obtain ⟨full, folds, swaps⟩ := bind_eq_ok_iff.mp ran
  obtain ⟨sent, rfl, sameSent, inbox, held⟩ := sendAll_holds same sending round.posted folds
  cases swaps
  refine .reduced sameSent ?_ held
  rw [ReducedMail.swap, sameSent, inbox]
  exact receives.renewed

theorem Holds.ranAll (holds : Holds nodes slots old (some reducer) mail) {rounds : List (Round M)}
    (ran : rounds.foldlM (fun mail round => round.run mail) mail = .ok after) :
    ∃ letters, Holds nodes slots letters (some reducer) after :=
  foldlM_invariant (fun _ now => ∃ letters, Holds nodes slots letters (some reducer) now)
    (fun _ _ _ _ ⟨_, held⟩ ran => ⟨_, held.ran ran⟩) [] rounds mail after ⟨old, holds⟩ ran

/-- What is sent in a round leaves the side for reading alone. -/
theorem Holds.posting (holds : Holds nodes slots old (some reducer) mail) (ran : round.run mail = .ok after)
    (count : Nat) : ∃ mid, (mail.prepare round.tasks).postAll (round.postings.take count) = .ok mid ∧
      mail.SameReceiving mid := by
  obtain ⟨r, rfl, same, blank, receives⟩ := holds.eq_reduced
  have sending : r.sending.Holds reducer nodes [] := blank ▸ MailSide.holds_blank reducer nodes
  obtain ⟨full, posts, -⟩ := bind_eq_ok_iff.mp ran
  rw [Mail.prepare, ← List.take_append_drop count round.postings, postAll, List.foldlM_append] at posts
  obtain ⟨mid, first, -⟩ := bind_eq_ok_iff.mp posts
  refine ⟨mid, first, ?_⟩
  have folds := (postAll_reduced r (round.postings.take count)).symm.trans first
  obtain ⟨sent, rfl, -, inbox, -⟩ := sendAll_holds same sending _ folds
  exact ⟨r, sent, rfl, rfl, inbox⟩

theorem Holds.condenses (holds : Holds nodes slots round.posted (some reducer) after) :
    round.Condenses nodes reducer after where
  hasMessages target inside := by
    rw [holds.hasMessages_iff inside]
    simp [Round.postedTo]
  folded target inside some := by
    have delivered := holds.delivered inside
    have yields := (after.messages target).yields_toList
    rw [Round.postedTo] at some ⊢
    cases sent : itemsOf round.posted target with
    | nil => exact absurd sent some
    | cons message others =>
      rw [sent] at delivered
      obtain ⟨value, folded, received⟩ := delivered
      exact ⟨value, folded, received ▸ yields⟩
  nothing target inside none := by
    have delivered := holds.delivered inside
    have yields := (after.messages target).yields_toList
    rw [Round.postedTo] at none
    rw [none] at delivered
    exact delivered ▸ yields

end Mail

/-- Whatever rounds have gone before, a round can be run just if it is foldable. What is sent in it leaves the side
for reading alone, and after it each node reads what it was sent in this round and nothing else: after any other
rounds it would leave the same mailboxes. -/
theorem isolation [Element M] {nodes : Nat} {reducer : Reducer M} {start before : Mail M}
    (made : Mail.new nodes (some reducer) = .ok start) (rounds : List (Round M))
    (ran : rounds.foldlM (fun mail round => round.run mail) start = .ok before) (round : Round M) :
    ((∃ after, round.run before = .ok after) ↔ round.Foldable nodes reducer) ∧
    ∀ after, round.run before = .ok after →
      (∀ count, ∃ mid, (before.prepare round.tasks).postAll (round.postings.take count) = .ok mid ∧
        before.SameReceiving mid) ∧
      round.Condenses nodes reducer after ∧
      ∀ (others : List (Round M)) (again : Mail M),
        others.foldlM (fun mail round => round.run mail) start = .ok again → round.run again = .ok after := by
  have fresh := Mail.holds_new made
  obtain ⟨letters, holds⟩ := fresh.ranAll ran
  refine ⟨holds.runs_iff, fun after ranNow => ?_⟩
  have held := holds.ran ranNow
  refine ⟨holds.posting ranNow, held.condenses, fun others again ranOthers => ?_⟩
  obtain ⟨lettersToo, holdsToo⟩ := fresh.ranAll ranOthers
  obtain ⟨afterToo, ranToo⟩ := holdsToo.runs_iff.mpr (holds.runs_iff.mp ⟨after, ranNow⟩)
  rw [ranToo, (holdsToo.ran ranToo).unique held]

/-- A reducer that is neither associative nor commutative: the messages are the digits of a number. -/
def digits : Reducer Int64 := ⟨0, fun current message => .ok (10 * current + message)⟩

/-- Two rounds in which a node is sent something, and one in which it is not. -/
def loud : Round Int64 := ⟨1, [.send 1 4, .send 1 2, .deposit 0 [], .send 0 7]⟩

def quiet : Round Int64 := ⟨1, [.send 0 8, .send 0 9]⟩

theorem isolation_digits : ∃ before after, [loud, loud].foldlM (fun mail round => round.run mail)
      (.reduced (.new 2 digits)) = .ok before ∧ quiet.run before = .ok after ∧
    (∀ count, ∃ mid, (before.prepare 1).postAll (quiet.postings.take count) = .ok mid ∧
      before.SameReceiving mid) ∧
    quiet.Condenses 2 digits after ∧ quiet.postedTo 0 = [8, 9] ∧ quiet.postedTo 1 = [] ∧
    digits.foldFrom digits.identity [8, 9] = .ok 89 ∧
    quiet.run (.reduced (.new 2 digits)) = .ok after := by
  have made : Mail.new 2 (some digits) = .ok (.reduced (.new 2 digits)) := rfl
  have fresh := Mail.holds_new made
  have foldable : ∀ round : Round Int64, (∀ letter ∈ round.posted, letter.1 < 2) → round.Foldable 2 digits := by
    refine fun round targets => ⟨targets, fun target _ => ?_⟩
    exact ⟨_, List.foldlM_pure⟩
  obtain ⟨first, ranFirst⟩ := fresh.runs_iff.mpr (foldable loud (by decide))
  obtain ⟨before, ranSecond⟩ := (fresh.ran ranFirst).runs_iff.mpr (foldable loud (by decide))
  have ran : [loud, loud].foldlM (fun mail round => round.run mail) (.reduced (.new 2 digits)) = .ok before :=
    bind_eq_ok_iff.mpr ⟨first, ranFirst, bind_eq_ok_iff.mpr ⟨before, ranSecond, rfl⟩⟩
  obtain ⟨runs, further⟩ := isolation made [loud, loud] ran quiet
  obtain ⟨after, ranNow⟩ := runs.mpr (foldable quiet (by decide))
  obtain ⟨meanwhile, condenses, again⟩ := further after ranNow
  exact ⟨before, after, ran, ranNow, meanwhile, condenses, by decide, by decide, by decide, again [] _ rfl⟩

end BulkSync
