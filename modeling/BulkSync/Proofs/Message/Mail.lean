import BulkSync.Message.Mail
import BulkSync.Proofs.Message.Reduced

/-! # Delivery of letters

A letter is a message with its target. Between two supersteps the mailboxes hold the letters of the
superstep before (`Mail.Holds`): each node has received what was sent to it (`Holds.delivered`), and
nothing is on its way. While the tasks of a superstep hand in their letters the mailboxes still show
the old ones and carry the new ones (`Mail.Carries`); delivery then makes those the letters that are
held (`Carries.swap`).

Queued letters come out slot by slot, whatever order the tasks were executed in. Reduced letters are
folded in the order of execution. -/

namespace BulkSync

open Rows (itemsOf)

variable {M : Type}

/-- What a node receives of the messages sent to it: all of them in order, or with a reducer their
fold, if there are any. -/
def Delivered (reducer : Option (Reducer M)) (sent received : List M) : Prop :=
  match reducer, sent with
  | none, sent => received = sent
  | some _, [] => received = []
  | some r, sent => ∃ value, r.foldFrom r.identity sent = .ok value ∧ received = [value]

/-- The letters that reach their targets, if slot `slot` has the letters `letters slot` and the tasks
are executed in some order. -/
def arrivals (reducer : Option (Reducer M)) (tasks : Nat) (order : List Nat)
    (letters : Nat → List (Nat × M)) : List (Nat × M) :=
  match reducer with
  | none => (List.range tasks).flatMap letters
  | some _ => order.flatMap letters

theorem arrivals_in_order (reducer : Option (Reducer M)) (tasks : Nat)
    (letters : Nat → List (Nat × M)) :
    arrivals reducer tasks (List.range tasks) letters = (List.range tasks).flatMap letters := by
  cases reducer <;> rfl

theorem Messages.isEmpty_eq [Inhabited M] (m : Messages M) : m.isEmpty = m.toList.isEmpty := by
  rw [isEmpty, ← length_toList]
  cases m.toList <;> rfl

namespace Mail

variable [Element M]

/-! ## Letters of a task -/

/-- Folds letters one after the other, if messages are reduced. -/
def foldAll (mail : Mail M) (letters : List (Nat × M)) : Except Fault (Mail M) :=
  letters.foldlM (fun mail letter => mail.fold letter.1 letter.2) mail

/-- Puts letters into an outbox one after the other, if messages are queued. -/
def collectAll (mail : Mail M) (letters : List (Nat × M)) (outbox : Outbox M) : Outbox M :=
  letters.foldl (fun outbox letter => mail.collect letter.1 letter.2 outbox) outbox

/-- What a task with a slot does with its letters in all. -/
def handIn (mail : Mail M) (slot : Nat) (letters : List (Nat × M)) : Except Fault (Mail M) := do
  let mail ← mail.foldAll letters
  return mail.deposit slot (mail.collectAll letters #[])

/-- What the tasks with these slots do, one after the other. -/
def handInAll (mail : Mail M) (letters : Nat → List (Nat × M)) (slots : List Nat) :
    Except Fault (Mail M) :=
  slots.foldlM (fun mail slot => mail.handIn slot (letters slot)) mail

theorem foldAll_append (mail : Mail M) (first second : List (Nat × M)) :
    mail.foldAll (first ++ second) = mail.foldAll first >>= (·.foldAll second) :=
  List.foldlM_append

theorem foldAll_queue (q : QueueMail M) (letters : List (Nat × M)) :
    (queue q).foldAll letters = .ok (.queue q) := by
  induction letters with
  | nil => rfl
  | cons letter letters inductionHypothesis => exact inductionHypothesis

omit [Element M] in
theorem collectAll_append (mail : Mail M) (first second : List (Nat × M)) (outbox : Outbox M) :
    mail.collectAll (first ++ second) outbox = mail.collectAll second (mail.collectAll first outbox) :=
  List.foldl_append

omit [Element M] in
theorem collectAll_queue (q : QueueMail M) (letters : List (Nat × M)) (outbox : Outbox M) :
    (queue q).collectAll letters outbox = outbox ++ letters.toArray := by
  induction letters generalizing outbox with
  | nil => simp [collectAll]
  | cons letter letters inductionHypothesis =>
    refine (inductionHypothesis (outbox.push letter)).trans ?_
    simp

omit [Element M] in
theorem collectAll_congr {mail other : Mail M} (same : other.collect = mail.collect) (letters : List (Nat × M))
    (outbox : Outbox M) : other.collectAll letters outbox = mail.collectAll letters outbox := by
  rw [collectAll, collectAll, same]

theorem collect_foldAll {mail folded : Mail M} {letters : List (Nat × M)}
    (ran : mail.foldAll letters = .ok folded) : folded.collect = mail.collect := by
  refine foldlM_invariant (fun _ now => now.collect = mail.collect) ?_ [] letters mail folded rfl ran
  intro _ now letter next same step
  cases now with
  | queue q =>
    cases step
    exact same
  | reduced r =>
    obtain ⟨sent, _, done⟩ := bind_eq_ok_iff.mp step
    cases done
    exact same

/-! ## What is received meanwhile -/

theorem hasMessages_eq (mail : Mail M) (node : Nat) :
    mail.hasMessages node = !(mail.messages node).isEmpty := by
  cases mail with
  | queue q =>
    simp only [hasMessages, QueueMail.hasMessages, messages, QueueMail.messages, Messages.isEmpty,
      Messages.length]
    rcases Nat.lt_or_ge (q.inbox.bounds node).1 (q.inbox.bounds node).2 with some | none
    · simp [some, Nat.sub_ne_zero_of_lt some]
    · simp [Nat.not_lt.mpr none, Nat.sub_eq_zero_of_le none]
  | reduced r =>
    simp only [hasMessages, messages, ReducedMail.messages, Messages.isEmpty, Messages.length]
    cases r.hasMessages node <;> rfl

/-- Mailboxes from which every node reads the same. -/
def SameInbox (mail other : Mail M) : Prop :=
  ∀ node, other.messages node = mail.messages node ∧ other.hasMessages node = mail.hasMessages node

theorem SameInbox.refl (mail : Mail M) : mail.SameInbox mail := fun _ => ⟨rfl, rfl⟩

theorem SameInbox.trans {first second third : Mail M} (one : first.SameInbox second)
    (two : second.SameInbox third) : first.SameInbox third := fun node =>
  ⟨(two node).1.trans (one node).1, (two node).2.trans (one node).2⟩

theorem sameInbox_prepare (mail : Mail M) (tasks : Nat) : mail.SameInbox (mail.prepare tasks) := by
  cases mail <;> exact fun _ => ⟨rfl, rfl⟩

theorem sameInbox_deposit (mail : Mail M) (slot : Nat) (outbox : Outbox M) :
    mail.SameInbox (mail.deposit slot outbox) := by
  cases mail <;> exact fun _ => ⟨rfl, rfl⟩

theorem sameInbox_fold {mail folded : Mail M} {target : Nat} {message : M}
    (ran : mail.fold target message = .ok folded) : mail.SameInbox folded := by
  cases mail with
  | queue q =>
    cases ran
    exact SameInbox.refl _
  | reduced r =>
    obtain ⟨sent, sends, finished⟩ := bind_eq_ok_iff.mp ran
    cases finished
    obtain ⟨current, _, reduced⟩ := bind_eq_ok_iff.mp sends
    obtain ⟨next, _, flagged⟩ := bind_eq_ok_iff.mp reduced
    obtain ⟨flags, _, done⟩ := bind_eq_ok_iff.mp flagged
    cases done
    exact fun _ => ⟨rfl, rfl⟩

theorem sameInbox_foldAll {mail folded : Mail M} {letters : List (Nat × M)}
    (ran : mail.foldAll letters = .ok folded) : mail.SameInbox folded :=
  foldlM_invariant (fun _ now => mail.SameInbox now)
    (fun _ _ _ _ same ran => same.trans (sameInbox_fold ran)) [] letters mail folded (.refl mail) ran

theorem sameInbox_handIn {mail given : Mail M} {slot : Nat} {letters : List (Nat × M)}
    (ran : mail.handIn slot letters = .ok given) : mail.SameInbox given := by
  obtain ⟨folded, folds, done⟩ := bind_eq_ok_iff.mp ran
  cases done
  exact (sameInbox_foldAll folds).trans (sameInbox_deposit _ _ _)

theorem sameInbox_handInAll {mail given : Mail M} {letters : Nat → List (Nat × M)} {slots : List Nat}
    (ran : mail.handInAll letters slots = .ok given) : mail.SameInbox given :=
  foldlM_invariant (fun _ now => mail.SameInbox now)
    (fun _ _ _ _ same ran => same.trans (sameInbox_handIn ran)) [] slots mail given (.refl mail) ran

theorem handInAll_concat {mail given full : Mail M} {letters : Nat → List (Nat × M)} {slots : List Nat}
    {slot : Nat} (first : mail.handInAll letters slots = .ok given)
    (last : given.handIn slot (letters slot) = .ok full) :
    mail.handInAll letters (slots ++ [slot]) = .ok full := by
  have both : mail.handInAll letters (slots ++ [slot]) =
      mail.handInAll letters slots >>= (·.handInAll letters [slot]) := List.foldlM_append
  have one : given.handInAll letters [slot] = given.handIn slot (letters slot) >>= pure := rfl
  rw [both, first]
  exact one.trans ((bind_pure _).trans last)

/-! ## Letters that are held -/

/-- The mailboxes between two supersteps: the inboxes hold the letters that were sent in the one
before, and no letter is on its way. -/
inductive Holds (nodes slots : Nat) (letters : List (Nat × M)) : Option (Reducer M) → Mail M → Prop
  | queue (inside : ∀ letter ∈ letters, letter.1 < nodes) :
      Holds nodes slots letters none
        (.queue ⟨nodes, Array.replicate slots #[], Rows.group nodes letters⟩)
  | reduced {r : ReducedMail M} {reducer : Reducer M} (same : r.reducer = reducer)
      (blank : r.sending = ReducedMail.blank nodes reducer)
      (holds : r.receiving.Holds reducer nodes letters) :
      Holds nodes slots letters (some reducer) (.reduced r)

theorem holds_new {nodes : Nat} {reducer : Option (Reducer M)} {mail : Mail M}
    (made : Mail.new nodes reducer = .ok mail) : Holds nodes 0 [] reducer mail := by
  cases reducer with
  | some reducer =>
    cases made
    exact .reduced rfl rfl (MailSide.holds_blank reducer nodes)
  | none =>
    obtain ⟨_, _, done⟩ := bind_eq_ok_iff.mp made
    cases done
    rw [QueueMail.new, ← Rows.group_nil]
    exact .queue (by simp)

section Received

variable {nodes slots : Nat} {letters : List (Nat × M)} {reducer : Option (Reducer M)} {mail : Mail M}

/-- Each node has received what was sent to it. -/
theorem Holds.delivered (holds : Holds nodes slots letters reducer mail) {node : Nat}
    (bound : node < nodes) :
    Delivered reducer (itemsOf letters node) (mail.messages node).toList := by
  cases holds with
  | queue inside =>
    simp only [messages, QueueMail.messages, Rows.bounds_group inside bound, Messages.toList,
      Nat.add_sub_cancel_left]
    exact Rows.peek_group inside bound
  | @reduced r reducer same blank holds =>
    have flag := holds.flag node bound
    have value := holds.peek bound
    simp only [messages, ReducedMail.messages, ReducedMail.hasMessages, flag, Messages.toList]
    cases sent : itemsOf letters node with
    | nil => simp [Delivered]
    | cons message others =>
      rw [sent] at value
      exact ⟨_, value, by simp⟩

theorem Holds.hasMessages_iff (holds : Holds nodes slots letters reducer mail) {node : Nat}
    (bound : node < nodes) : mail.hasMessages node = !(itemsOf letters node).isEmpty := by
  cases holds with
  | queue inside =>
    simp only [hasMessages, QueueMail.hasMessages, Rows.bounds_group inside bound]
    cases itemsOf letters node <;> simp
  | reduced same blank holds => exact holds.flag node bound

/-- Letters of which every node is handed the same: the same ones in the same order, or with a reducer
any that have the same fold. -/
def SameMail (reducer : Option (Reducer M)) (nodes : Nat) (letters others : List (Nat × M)) : Prop :=
  match reducer with
  | none => letters = others
  | some r => ∀ node < nodes, (itemsOf letters node).isEmpty = (itemsOf others node).isEmpty ∧
      r.foldFrom r.identity (itemsOf letters node) = r.foldFrom r.identity (itemsOf others node)

omit [Element M] in
theorem SameMail.refl (reducer : Option (Reducer M)) (nodes : Nat) (letters : List (Nat × M)) :
    SameMail reducer nodes letters letters := by
  cases reducer with
  | none => rfl
  | some r => exact fun _ _ => ⟨rfl, rfl⟩

theorem Holds.sameInbox {slotsToo : Nat} {others : List (Nat × M)} {other : Mail M}
    (holds : Holds nodes slots letters reducer mail)
    (holdsToo : Holds nodes slotsToo others reducer other)
    (same : SameMail reducer nodes letters others) : mail.SameInbox other := by
  cases holds with
  | queue inside =>
    cases holdsToo with
    | queue insideToo =>
      obtain rfl : letters = others := same
      exact fun _ => ⟨rfl, rfl⟩
  | @reduced r reducer own blank receives =>
    cases holdsToo with
    | @reduced q reducer ownToo blankToo receivesToo =>
      have sides := receives.ext receivesToo same
      intro node
      constructor
      · simp only [messages, ReducedMail.messages, ReducedMail.hasMessages, sides]
        rfl
      · simp only [hasMessages, ReducedMail.hasMessages, sides]

/-! ### Mailboxes at rest -/

end Received

/-! ## Letters on their way -/

/-- The mailboxes during a superstep: they hold the old letters, and the tasks with the slots `done`
have handed in theirs. -/
inductive Carries (nodes tasks : Nat) (old : List (Nat × M)) (letters : Nat → List (Nat × M))
    (done : List Nat) : Option (Reducer M) → Mail M → Prop
  | queue (inside : ∀ letter ∈ old, letter.1 < nodes) :
      Carries nodes tasks old letters done none
        (.queue ⟨nodes,
          Array.ofFn fun slot : Fin tasks => if slot.val ∈ done then (letters slot).toArray else #[],
          Rows.group nodes old⟩)
  | reduced {r : ReducedMail M} {reducer : Reducer M} (same : r.reducer = reducer)
      (holds : r.receiving.Holds reducer nodes old)
      (sent : r.sending.Holds reducer nodes (done.flatMap letters)) :
      Carries nodes tasks old letters done (some reducer) (.reduced r)

section Carried

variable {nodes slots tasks : Nat} {old : List (Nat × M)} {letters : Nat → List (Nat × M)}
  {done order : List Nat} {reducer : Option (Reducer M)} {mail full : Mail M}

theorem Holds.prepare (holds : Holds nodes slots old reducer mail) :
    Carries nodes tasks old letters [] reducer (mail.prepare tasks) := by
  cases holds with
  | queue inside =>
    have outboxes : (Array.replicate slots (#[] : Outbox M)).extract 0 tasks ++
        Array.replicate (tasks - slots) #[] = Array.ofFn fun slot : Fin tasks =>
          if slot.val ∈ ([] : List Nat) then (letters slot).toArray else #[] := by
      apply Array.ext
      · simp
        omega
      · intro slot _ _
        simp
    simp only [Mail.prepare, QueueMail.prepare, Array.size_replicate, outboxes]
    exact .queue inside
  | reduced same blank holds =>
    refine .reduced same holds ?_
    rw [blank]
    exact MailSide.holds_blank _ _

theorem sendAll_holds {r : ReducedMail M} {reducer : Reducer M} {sent : List (Nat × M)}
    (same : r.reducer = reducer) (holds : r.sending.Holds reducer nodes sent)
    (extra : List (Nat × M)) (ran : (Mail.reduced r).foldAll extra = .ok full) :
    ∃ folded, full = .reduced folded ∧ folded.reducer = reducer ∧ folded.receiving = r.receiving ∧
      folded.sending.Holds reducer nodes (sent ++ extra) := by
  rw [foldAll] at ran
  refine foldlM_invariant (fun done now => ∃ folded, now = .reduced folded ∧ folded.reducer = reducer ∧
    folded.receiving = r.receiving ∧ folded.sending.Holds reducer nodes (sent ++ done)) ?_ [] extra
    (.reduced r) full ⟨r, rfl, same, rfl, by simpa using holds⟩ ran
  rintro done _ letter now ⟨folded, rfl, sameNow, inbox, holdsNow⟩ step
  obtain ⟨next, sends, finished⟩ := bind_eq_ok_iff.mp step
  cases finished
  obtain ⟨holdsNext, inboxNext, sameNext⟩ := ReducedMail.Holds.send sameNow holdsNow sends
  exact ⟨next, rfl, sameNext, inboxNext.trans inbox, by simpa using holdsNext⟩

theorem Carries.handIn (carries : Carries nodes tasks old letters done reducer mail) {slot : Nat}
    (ran : mail.handIn slot (letters slot) = .ok full) :
    Carries nodes tasks old letters (done ++ [slot]) reducer full := by
  obtain ⟨folded, folds, finished⟩ := bind_eq_ok_iff.mp ran
  cases finished
  cases carries with
  | queue inside =>
    rw [foldAll_queue] at folds
    cases folds
    have outboxes : (Array.ofFn fun other : Fin tasks =>
          if other.val ∈ done then (letters other).toArray else #[]).setIfInBounds slot
            (letters slot).toArray =
        Array.ofFn fun other : Fin tasks =>
          if other.val ∈ done ++ [slot] then (letters other).toArray else #[] := by
      apply Array.ext
      · simp
      · intro other inside _
        rw [Array.getElem_setIfInBounds (by simpa using inside)]
        by_cases here : slot = other
        · subst here
          simp
        · simp [here, Ne.symm here]
    simp only [deposit, QueueMail.deposit, collectAll_queue, Array.empty_append, outboxes]
    exact .queue inside
  | reduced same holds sent =>
    obtain ⟨now, rfl, sameNow, inbox, sentNow⟩ := sendAll_holds same sent _ folds
    exact .reduced sameNow (inbox ▸ holds) (by simpa using sentNow)

theorem Carries.handInAll (carries : Carries nodes tasks old letters [] reducer mail)
    (ran : mail.handInAll letters order = .ok full) :
    Carries nodes tasks old letters order reducer full :=
  foldlM_invariant (fun done now => Carries nodes tasks old letters done reducer now)
    (fun _ _ _ _ carries ran => carries.handIn ran) [] order mail full carries ran

/-- Delivery succeeds only if every message in the slots is to a node. -/
theorem swap_queue_ok {q : QueueMail M} {delivered : Mail M}
    (swaps : (Mail.queue q).swap = .ok delivered) :
    (∀ letter ∈ q.pending, letter.1 < q.nodes) ∧
      delivered = .queue ⟨q.nodes, q.outboxes.map fun _ => #[], Rows.group q.nodes q.pending⟩ := by
  obtain ⟨swapped, swapsQueue, finished⟩ := bind_eq_ok_iff.mp swaps
  cases finished
  obtain ⟨⟨⟩, checks, made⟩ := bind_eq_ok_iff.mp swapsQueue
  cases made
  refine ⟨fun letter member => ?_, rfl⟩
  obtain ⟨index, added, bounded⟩ := bind_eq_ok_iff.mp (forM_eq_ok checks letter member)
  rw [Word.add?] at added
  split at added
  · cases added
    split at bounded
    · omega
    · cases bounded
  · cases added

theorem Carries.swap (carries : Carries nodes tasks old letters order reducer mail)
    (all : ∀ slot < tasks, slot ∉ order → letters slot = []) (swaps : mail.swap = .ok full) :
    Holds nodes tasks (arrivals reducer tasks order letters) reducer full := by
  cases carries with
  | queue inside =>
    obtain ⟨targets, rfl⟩ := swap_queue_ok swaps
    have pending : (⟨nodes, Array.ofFn fun slot : Fin tasks =>
        if slot.val ∈ order then (letters slot).toArray else #[], Rows.group nodes old⟩ :
          QueueMail M).pending = (List.range tasks).flatMap letters := by
      -- the slots that have not been filled are those of tasks without letters
      have slotsInside : ∀ slot : Fin tasks,
          (if slot.val ∈ order then (letters slot).toArray else #[]) = (letters slot).toArray := by
        intro slot
        by_cases filled : slot.val ∈ order
        · exact if_pos filled
        · rw [if_neg filled, all slot slot.isLt filled]
      simp only [QueueMail.pending, slotsInside]
      rw [List.flatMap_def, List.flatMap_def]
      congr 1
      apply List.ext_getElem <;> simp
    have emptied : (Array.ofFn fun slot : Fin tasks =>
        if slot.val ∈ order then (letters slot).toArray else #[]).map (fun _ => (#[] : Outbox M)) =
          Array.replicate tasks #[] := by
      apply Array.ext <;> simp
    rw [pending] at targets ⊢
    simp only [emptied]
    exact .queue targets
  | reduced same holds sent =>
    cases swaps
    refine .reduced same ?_ sent
    rw [ReducedMail.swap, same]
    exact holds.renewed

end Carried
end Mail
end BulkSync
