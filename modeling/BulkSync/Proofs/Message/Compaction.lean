import BulkSync.Proofs.Message.Acceptance
import Mathlib.Logic.Function.Iterate

/-! # Rounds of queued delivery

In each round any number of outboxes are deposited in slots of their own, in any order, and are then delivered.
Until then every node reads what it was sent in the round before (`Carries.postAll`). After that it reads what it
was sent in this round, slot by slot, and nothing else is left (`Holds.run`). So much holds after any rounds, and
the messages are handed out one by one (`compaction`). -/

namespace BulkSync

open Rows (itemsOf)

variable {M : Type}

/-! ## Messages taken one by one -/

namespace Messages

variable [Inhabited M]

theorem toList_rest (m : Messages M) : m.rest.toList = m.toList.tail := by
  rw [rest]
  cases taken : m.next? with
  | none =>
    rw [(next?_eq_none_iff m).mp taken]
    exact (next?_eq_none_iff m).mp taken
  | some pair => rw [toList_of_next? taken, List.tail_cons, Option.map_some, Option.getD_some]

theorem toList_iterate_rest (m : Messages M) (taken : Nat) : (rest^[taken] m).toList = m.toList.drop taken := by
  induction taken with
  | zero => rfl
  | succ taken inductionHypothesis =>
    rw [Function.iterate_succ_apply', toList_rest, inductionHypothesis, List.tail_drop]

theorem next?_eq_head? (m : Messages M) : m.next?.map (·.1) = m.toList.head? := by
  cases taken : m.next? with
  | none => rw [(next?_eq_none_iff m).mp taken, Option.map_none, List.head?_nil]
  | some pair => rw [toList_of_next? taken, Option.map_some, List.head?_cons]

/-- Just these messages are handed out one by one, and at any time the length counts those still to come. -/
structure Yields (m : Messages M) (items : List M) : Prop where
  next : ∀ taken, (rest^[taken] m).next?.map (·.1) = items[taken]?
  toList : ∀ taken, (rest^[taken] m).toList = items.drop taken
  length : ∀ taken, (rest^[taken] m).length = (items.drop taken).length
  isEmpty : ∀ taken, (rest^[taken] m).isEmpty = true ↔ items.drop taken = []

theorem yields_toList (m : Messages M) : m.Yields m.toList where
  next taken := by rw [next?_eq_head?, toList_iterate_rest, List.head?_drop]
  toList := m.toList_iterate_rest
  length taken := by rw [← length_toList, toList_iterate_rest]
  isEmpty taken := by rw [isEmpty_eq, toList_iterate_rest, List.isEmpty_iff]

end Messages

/-! ## Rounds -/

/-- What happens to mailboxes before delivery. -/
inductive Posting (M : Type) where
  | send (target : Nat) (message : M)
  | deposit (slot : Nat) (letters : List (Nat × M))

/-- The slots of a round, and what happens before its delivery. -/
structure Round (M : Type) where
  tasks : Nat
  postings : List (Posting M)

namespace Posting

def deposit? : Posting M → Option (Nat × List (Nat × M))
  | send _ _ => none
  | deposit slot letters => some (slot, letters)

end Posting

namespace Round

def deposits (round : Round M) : List (Nat × List (Nat × M)) := round.postings.filterMap Posting.deposit?

def letters (round : Round M) (slot : Nat) : List (Nat × M) := (itemsOf round.deposits slot).flatten

/-- The messages to a node, by slot, and within a slot in the order of sending. -/
def sent (round : Round M) (target : Nat) : List M :=
  (List.range round.tasks).flatMap fun slot => itemsOf (round.letters slot) target

/-- Each outbox has a slot of its own, and all messages are to nodes. -/
structure Valid (nodes : Nat) (round : Round M) : Prop where
  distinct : (round.deposits.map (·.1)).Nodup
  slots : ∀ deposit ∈ round.deposits, deposit.1 < round.tasks
  targets : ∀ deposit ∈ round.deposits, ∀ letter ∈ deposit.2, letter.1 < nodes

variable {round other : Round M} {nodes : Nat}

theorem letters_of_mem (distinct : (round.deposits.map (·.1)).Nodup) {slot : Nat} {outbox : List (Nat × M)}
    (deposited : (slot, outbox) ∈ round.deposits) : round.letters slot = outbox := by
  rw [letters, Rows.itemsOf_eq_singleton distinct deposited, List.flatten_singleton]

theorem letters_of_absent {slot : Nat} (absent : slot ∉ round.deposits.map (·.1)) : round.letters slot = [] := by
  rw [letters, Rows.itemsOf_eq_nil absent, List.flatten_nil]

theorem mem_deposits_of_mem {slot : Nat} {letter : Nat × M} (member : letter ∈ round.letters slot) :
    ∃ outbox, (slot, outbox) ∈ round.deposits ∧ letter ∈ outbox := by
  obtain ⟨outbox, deposited, within⟩ := List.mem_flatten.mp member
  exact ⟨outbox, Rows.mem_itemsOf.mp deposited, within⟩

theorem sent_eq (round : Round M) (target : Nat) :
    itemsOf ((List.range round.tasks).flatMap round.letters) target = round.sent target :=
  Rows.itemsOf_flatMap ..

/-- It makes no difference in which order outboxes are deposited. -/
theorem letters_eq_of_perm (distinct : (round.deposits.map (·.1)).Nodup)
    (same : other.deposits.Perm round.deposits) : other.letters = round.letters := by
  have distinctToo : (other.deposits.map (·.1)).Nodup := (same.map _).nodup_iff.mpr distinct
  funext slot
  by_cases filled : slot ∈ round.deposits.map (·.1)
  · obtain ⟨⟨slot, outbox⟩, deposited, rfl⟩ := List.mem_map.mp filled
    rw [letters_of_mem distinct deposited, letters_of_mem distinctToo (same.mem_iff.mpr deposited)]
  · rw [letters_of_absent filled, letters_of_absent fun within => filled ((same.map _).mem_iff.mp within)]

theorem Valid.perm (valid : round.Valid nodes) (tasks : other.tasks = round.tasks)
    (same : other.deposits.Perm round.deposits) : other.Valid nodes where
  distinct := (same.map _).nodup_iff.mpr valid.distinct
  slots deposit member := tasks ▸ valid.slots deposit (same.mem_iff.mp member)
  targets deposit member := valid.targets deposit (same.mem_iff.mp member)

end Round

/-! ## Before delivery -/

namespace Mail

variable [Element M]

/-- What a posting does. An outbox has collected its letters one after the other. -/
def post (mail : Mail M) : Posting M → Except Fault (Mail M)
  | .send target message => mail.fold target message
  | .deposit slot letters => .ok (mail.deposit slot (mail.collectAll letters #[]))

def postAll (mail : Mail M) (postings : List (Posting M)) : Except Fault (Mail M) := postings.foldlM post mail

variable {nodes slots tasks : Nat} {old : List (Nat × M)} {letters : Nat → List (Nat × M)} {done : List Nat}
  {mail : Mail M}

theorem Carries.foldAll (carries : Carries nodes tasks old letters done none mail) (more : List (Nat × M)) :
    mail.foldAll more = .ok mail := by
  cases carries with
  | queue inside => exact foldAll_queue _ more

/-- What is sent stays with the one who sends it, and what is deposited stays in its slot. -/
theorem Carries.postAll (carries : Carries nodes tasks old letters done none mail) (postings : List (Posting M))
    (own : ∀ deposit ∈ postings.filterMap Posting.deposit?, letters deposit.1 = deposit.2) : ∃ full,
      mail.postAll postings = .ok full ∧ mail.SameInbox full ∧
        Carries nodes tasks old letters (done ++ (postings.filterMap Posting.deposit?).map (·.1)) none full := by
  induction postings generalizing mail done with
  | nil => exact ⟨mail, rfl, .refl mail, by simpa using carries⟩
  | cons posting postings inductionHypothesis =>
    cases posting with
    | send target message =>
      have sends : mail.fold target message = .ok mail := by
        simpa [Mail.foldAll] using carries.foldAll [(target, message)]
      obtain ⟨full, ran, same, still⟩ := inductionHypothesis carries own
      refine ⟨full, ?_, same, still⟩
      rw [Mail.postAll, List.foldlM_cons, post, sends]
      exact ran
    | deposit slot outbox =>
      obtain rfl : letters slot = outbox := own (slot, outbox) (List.mem_cons_self ..)
      have handsIn : mail.handIn slot (letters slot) =
          .ok (mail.deposit slot (mail.collectAll (letters slot) #[])) := by
        rw [Mail.handIn, carries.foldAll]
        rfl
      obtain ⟨full, ran, same, still⟩ := inductionHypothesis (carries.handIn handsIn)
        fun deposit member => own deposit (List.mem_cons_of_mem _ member)
      refine ⟨full, ran, SameInbox.trans (sameInbox_deposit mail slot _) same, ?_⟩
      simpa [Posting.deposit?, List.append_assoc] using still

theorem postAll_append (mail : Mail M) (first second : List (Posting M)) :
    mail.postAll (first ++ second) = mail.postAll first >>= (·.postAll second) :=
  List.foldlM_append

/-- To send letters one by one is to fold them. -/
theorem postAll_sends (mail : Mail M) (letters : List (Nat × M)) :
    mail.postAll (letters.map fun letter => .send letter.1 letter.2) = mail.foldAll letters := by
  rw [Mail.postAll, Mail.foldAll, List.foldlM_map]
  rfl

omit [Element M] in
theorem filterMap_deposit_sends (letters : List (Nat × M)) :
    (letters.map fun letter => Posting.send letter.1 letter.2).filterMap Posting.deposit? = [] := by
  rw [List.filterMap_map]
  exact List.filterMap_eq_nil_iff.mpr fun _ _ => rfl

/-- What a posting makes of the mailboxes: they are read as before, and collect as before. -/
theorem postAll_keeps {postings : List (Posting M)} {full : Mail M} (ran : mail.postAll postings = .ok full) :
    mail.SameInbox full ∧ full.collect = mail.collect := by
  refine foldlM_invariant (fun _ now => mail.SameInbox now ∧ now.collect = mail.collect) ?_ [] postings mail full
    ⟨.refl mail, rfl⟩ ran
  rintro _ now posting next ⟨same, collects⟩ step
  cases posting with
  | send target message =>
    have folded : now.foldAll [(target, message)] = .ok next := by
      rw [Mail.foldAll, List.foldlM_cons]
      exact bind_eq_ok_iff.mpr ⟨next, step, rfl⟩
    exact ⟨same.trans (sameInbox_foldAll folded), (collect_foldAll folded).trans collects⟩
  | deposit slot letters =>
    cases step
    refine ⟨same.trans (sameInbox_deposit _ _ _), ?_⟩
    rw [← collects]
    cases now <;> rfl

end Mail

/-! ## Delivery -/

def Round.run [Element M] (round : Round M) (mail : Mail M) : Except Fault (Mail M) := do
  let mail ← (mail.prepare round.tasks).postAll round.postings
  mail.swap

/-- What a round leaves: each node reads what it was sent in this round, and every outbox is empty. -/
structure Round.Compacts [Element M] (round : Round M) (nodes : Nat) (mail : Mail M) : Prop where
  messages : ∀ target < nodes, (mail.messages target).Yields (round.sent target)
  hasMessages : ∀ target < nodes, mail.hasMessages target = true ↔ round.sent target ≠ []
  outboxes : ∃ q, mail = .queue q ∧ q.outboxes.size = round.tasks ∧ ∀ outbox ∈ q.outboxes, outbox = #[]

namespace Mail

variable [Element M] {nodes slots : Nat} {old : List (Nat × M)} {round : Round M} {mail after : Mail M}

/-- Before delivery every node reads what it has read before. -/
theorem Holds.posted (holds : Holds nodes slots old none mail) (valid : round.Valid nodes) (posted : Nat) : ∃ mid,
    (mail.prepare round.tasks).postAll (round.postings.take posted) = .ok mid ∧ mail.SameInbox mid ∧
      Carries nodes round.tasks old round.letters
        (((round.postings.take posted).filterMap Posting.deposit?).map (·.1)) none mid := by
  have prepared : Carries nodes round.tasks old round.letters [] none (mail.prepare round.tasks) := holds.prepare
  obtain ⟨mid, ran, same, carries⟩ := prepared.postAll (round.postings.take posted) fun deposit member =>
    Round.letters_of_mem valid.distinct (((List.take_sublist ..).filterMap _).mem member)
  exact ⟨mid, ran, (sameInbox_prepare mail _).trans same, by simpa using carries⟩

theorem Holds.run (holds : Holds nodes slots old none mail) (valid : round.Valid nodes)
    (bounded : nodes < Word.limit) : ∃ after, round.run mail = .ok after ∧
      Holds nodes round.tasks ((List.range round.tasks).flatMap round.letters) none after := by
  obtain ⟨full, ran, _, carries⟩ := holds.posted valid round.postings.length
  rw [List.take_length] at ran carries
  have inside : ∀ slot < round.tasks, ∀ letter ∈ round.letters slot, letter.1 < nodes := by
    intro slot _ letter member
    obtain ⟨outbox, deposited, within⟩ := Round.mem_deposits_of_mem member
    exact valid.targets _ deposited letter within
  obtain ⟨after, swaps⟩ := carries.swap_succeeds inside bounded
  refine ⟨after, bind_eq_ok_iff.mpr ⟨full, ran, swaps⟩, ?_⟩
  exact carries.swap (fun slot _ absent => Round.letters_of_absent absent) swaps

/-- After a round in which each slot is given its own letters the mailboxes hold these, slot by slot. -/
theorem Holds.ranQueue (holds : Holds nodes slots old none mail) {letters : Nat → List (Nat × M)}
    (own : ∀ deposit ∈ round.deposits, letters deposit.1 = deposit.2)
    (all : ∀ slot < round.tasks, slot ∉ round.deposits.map (·.1) → letters slot = [])
    (ran : round.run mail = .ok after) :
    Holds nodes round.tasks ((List.range round.tasks).flatMap letters) none after := by
  obtain ⟨mid, posts, swaps⟩ := bind_eq_ok_iff.mp ran
  have prepared : Carries nodes round.tasks old letters [] none (mail.prepare round.tasks) := holds.prepare
  obtain ⟨full, ranToo, _, carries⟩ := prepared.postAll round.postings own
  cases posts.symm.trans ranToo
  rw [List.nil_append] at carries
  exact carries.swap all swaps

theorem Holds.runAll (holds : Holds nodes slots old none mail) (bounded : nodes < Word.limit)
    (rounds : List (Round M)) (valid : ∀ round ∈ rounds, round.Valid nodes) : ∃ after slots old,
      rounds.foldlM (fun mail round => round.run mail) mail = .ok after ∧ Holds nodes slots old none after := by
  induction rounds generalizing mail slots old with
  | nil => exact ⟨mail, slots, old, rfl, holds⟩
  | cons round rounds inductionHypothesis =>
    obtain ⟨next, ran, holdsNext⟩ := holds.run (valid round (List.mem_cons_self ..)) bounded
    obtain ⟨after, slots, old, rest, holdsAfter⟩ :=
      inductionHypothesis holdsNext fun round member => valid round (List.mem_cons_of_mem _ member)
    refine ⟨after, slots, old, ?_, holdsAfter⟩
    rw [List.foldlM_cons, ran]
    exact rest

theorem Holds.compacts (holds : Holds nodes round.tasks ((List.range round.tasks).flatMap round.letters) none after) :
    round.Compacts nodes after where
  messages target inside := by
    have received : (after.messages target).toList = _ := holds.delivered inside
    rw [← round.sent_eq, ← received]
    exact Messages.yields_toList _
  hasMessages target inside := by
    rw [holds.hasMessages_iff inside, round.sent_eq]
    simp
  outboxes := by
    cases holds with
    | queue inside =>
      refine ⟨_, rfl, Array.size_replicate, fun outbox member => Array.eq_of_mem_replicate member⟩

theorem Holds.queue_eq (holds : Holds nodes slots old none mail) :
    mail = .queue ⟨nodes, Array.replicate slots #[], Rows.group nodes old⟩ := by
  cases holds with
  | queue inside => rfl

end Mail

/-- Rounds of deposits cannot fail. After each of them the nodes read just what they were sent in it, the order of
the deposits makes no difference, and until delivery they read what they were sent before. -/
theorem compaction [Element M] {nodes : Nat} {start : Mail M} (made : Mail.new nodes none = .ok start)
    (rounds : List (Round M)) (round : Round M) (valid : ∀ r ∈ round :: rounds, r.Valid nodes) :
    ∃ before after, rounds.foldlM (fun mail round => round.run mail) start = .ok before ∧
      (∀ posted, ∃ mid, (before.prepare round.tasks).postAll (round.postings.take posted) = .ok mid ∧
        before.SameInbox mid) ∧
      round.run before = .ok after ∧ round.Compacts nodes after ∧
      ∀ other : Round M, other.tasks = round.tasks → other.deposits.Perm round.deposits →
        other.run before = .ok after := by
  have bounded : nodes < Word.limit := by
    obtain ⟨next, added, _⟩ := bind_eq_ok_iff.mp made
    rw [Word.add?] at added
    split at added
    · omega
    · cases added
  have now := valid round (List.mem_cons_self ..)
  obtain ⟨before, slots, old, ran, holds⟩ := (Mail.holds_new made).runAll bounded rounds
    fun round member => valid round (List.mem_cons_of_mem _ member)
  obtain ⟨after, ranNow, holdsAfter⟩ := holds.run now bounded
  refine ⟨before, after, ran, fun posted => ?_, ranNow, holdsAfter.compacts, fun other tasks same => ?_⟩
  · obtain ⟨mid, posts, inbox, _⟩ := holds.posted now posted
    exact ⟨mid, posts, inbox⟩
  · obtain ⟨afterToo, ranToo, holdsToo⟩ := holds.run (now.perm tasks same) bounded
    rw [ranToo, holdsToo.queue_eq, holdsAfter.queue_eq, tasks, Round.letters_eq_of_perm now.distinct same]

/-- A message to a node that is sent nothing in the round after. -/
def single : Round Int64 := ⟨1, [.send 1 7, .deposit 0 [(1, 7)]]⟩

/-- The outbox of the second slot is deposited first. -/
def crossing : Round Int64 :=
  ⟨2, [.send 2 3, .deposit 1 [(2, 3)], .send 2 1, .send 0 5, .deposit 0 [(2, 1), (0, 5)]]⟩

theorem compaction_crossing : Mail.new 3 none = .ok (.queue (.new 3) : Mail Int64) ∧
    (∀ r ∈ [crossing, single], r.Valid 3) ∧ crossing.sent 2 = [1, 3] ∧ crossing.sent 1 = [] ∧
    ∃ before after, [single].foldlM (fun mail round => round.run mail) (.queue (.new 3)) = .ok before ∧
      (∀ posted, ∃ mid, (before.prepare 2).postAll (crossing.postings.take posted) = .ok mid ∧
        before.SameInbox mid) ∧
      crossing.run before = .ok after ∧ crossing.Compacts 3 after ∧
      ∀ other : Round Int64, other.tasks = 2 → other.deposits.Perm crossing.deposits →
        other.run before = .ok after := by
  have made : Mail.new 3 none = .ok (.queue (.new 3) : Mail Int64) := rfl
  have valid : ∀ r ∈ [crossing, single], r.Valid 3 :=
    List.forall_mem_cons.mpr ⟨⟨by decide, by decide, by decide⟩,
      List.forall_mem_singleton.mpr ⟨by decide, by decide, by decide⟩⟩
  exact ⟨made, valid, by decide, by decide, compaction made [single] crossing valid⟩

end BulkSync
