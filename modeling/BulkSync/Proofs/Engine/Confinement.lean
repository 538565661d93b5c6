import BulkSync.Proofs.Calls
import BulkSync.Proofs.Engine.Sound

/-! # What the calls of a node touch

A node that computes may make any calls, and it may go on after some of them have failed. What it changes are its own
numbers and its own vote, the stop flag if it raises that, and what is on its way to other nodes: its letters are
appended to the outbox of its task, or folded into the values of their targets (`Desk.Confined`). That holds of every
desk at which a node computes in a run (`Engine.confinement`).

A call that succeeds does to the desk what the deed of the node says (`Desk.Follows`). One that fails has done a part
of that, and what it has left on the desk are the traces of the deed that it has come to (`Desk.Traces`). -/

namespace BulkSync

open Rows (itemsOf itemsOf_append)

variable {γ M : Type} {schema : Schema} {nodes node superstep : Nat}

/-! ## Letters that are taken -/

namespace Mail

/-- Letters are taken by the mailboxes and the outbox of a task. Those that are queued are appended to the outbox. Those
that are reduced are folded into the values of their targets, on the side for sending, and the flags of these are set. -/
inductive Takes [Element M] (nodes : Nat) (letters : List (Nat × M)) : Mail M → Outbox M → Mail M → Outbox M → Prop
  | queue (q : QueueMail M) (outbox : Outbox M) :
      Takes nodes letters (.queue q) outbox (.queue q) (outbox ++ letters.toArray)
  | reduced (r : ReducedMail M) (sending : MailSide M) (outbox : Outbox M)
      (inside : ∀ letter ∈ letters, letter.1 < nodes)
      (values : ∀ target < nodes, r.reducer.foldFrom (r.sending.values.peek target) (itemsOf letters target) =
        .ok (sending.values.peek target))
      (flags : ∀ target < nodes, sending.flags.test target =
        (r.sending.flags.test target || !(itemsOf letters target).isEmpty)) :
      Takes nodes letters (.reduced r) outbox (.reduced { r with sending := sending }) outbox

variable [Element M] {letters : List (Nat × M)} {mail full : Mail M}

omit [Element M] in
theorem collectAll_reduced (r : ReducedMail M) (letters : List (Nat × M)) (outbox : Outbox M) :
    (reduced r).collectAll letters outbox = outbox := by
  induction letters with
  | nil => rfl
  | cons letter letters inductionHypothesis => exact inductionHypothesis

theorem Sound.takes (sound : mail.Sound nodes) (ran : mail.foldAll letters = .ok full) (outbox : Outbox M) :
    Takes nodes letters mail outbox full (mail.collectAll letters outbox) := by
  cases mail with
  | queue q =>
    rw [foldAll_queue] at ran
    cases ran
    rw [collectAll_queue]
    exact .queue q outbox
  | reduced r =>
    obtain ⟨sent, old, sends, -⟩ := sound
    obtain ⟨⟨reducer, sending, receiving⟩, rfl, same, inbox, held⟩ := sendAll_holds rfl sends letters ran
    cases same
    cases inbox
    rw [collectAll_reduced]
    refine .reduced r _ outbox (fun letter member => held.inside letter (List.mem_append_right _ member))
      (fun target inside => ?_) fun target inside => ?_
    -- the fold of what was sent before has come to the value from which this one goes on
    · have value := held.peek inside
      rwa [itemsOf_append, Reducer.foldFrom_append, sends.peek inside] at value
    · rw [held.flag target inside, sends.flag target inside, itemsOf_append]
      cases itemsOf sent target <;> rfl

end Mail

/-! ## Calls -/

section Calls

variable [GraphView γ]

namespace VertexCall

/-- The letters that a call of a node is to send. -/
def letters (g : γ) (node : Nat) : VertexCall M → List (Nat × M)
  | .send target message => [(target, message)]
  | .sendToNeighbors message =>
      match Handler.targets g node with
      | .ok targets => targets.toList.map (·, message)
      | .error _ => []
  | _ => []

inductive Sets : VertexCall M → Prop
  | setLong (key : String) (value : Int64) : Sets (.setLong key value)
  | setDouble (key : String) (value : Binary64) : Sets (.setDouble key value)

inductive AsksGraph : VertexCall M → Prop
  | degree : AsksGraph .degree
  | neighbors (more : Array Nat → Bool) : AsksGraph (.neighbors more)
  | weightedNeighbors (more : Array (Nat × Binary64) → Bool) : AsksGraph (.weightedNeighbors more)

end VertexCall

/-- What is sent by calls which these faults have struck: all letters of a call that has succeeded, and the first ones
of a call that has failed. -/
inductive Sends (g : γ) (node : Nat) : List (VertexCall M) → List (Option Fault) → List (Nat × M) → Prop
  | nil : Sends g node [] [] []
  | cons {call : VertexCall M} {calls : List (VertexCall M)} {struck : Option Fault} {faults : List (Option Fault)}
      {part letters : List (Nat × M)} (upTo : part <+: call.letters g node)
      (whole : struck = none → part = call.letters g node) (rest : Sends g node calls faults letters) :
      Sends g node (call :: calls) (struck :: faults) (part ++ letters)

namespace Sends

variable {g : γ} {calls more : List (VertexCall M)} {faults further : List (Option Fault)}
  {letters others : List (Nat × M)}

theorem append (first : Sends g node calls faults letters) (second : Sends g node more further others) :
    Sends g node (calls ++ more) (faults ++ further) (letters ++ others) := by
  induction first with
  | nil => exact second
  | cons upTo whole _ inductionHypothesis =>
    rw [List.append_assoc]
    exact .cons upTo whole inductionHypothesis

/-- Calls that succeed send all their letters. -/
theorem eq_flatMap (sends : Sends g node calls faults letters) (calm : ∀ struck ∈ faults, struck = none) :
    letters = calls.flatMap (VertexCall.letters g node) := by
  induction sends with
  | nil => rfl
  | cons _ whole _ inductionHypothesis =>
    rw [List.flatMap_cons, whole (calm _ (List.mem_cons_self ..)),
      inductionHypothesis fun struck member => calm struck (List.mem_cons_of_mem _ member)]

end Sends

/-! ## Deeds -/

namespace Deed

/-- What calls of a node which these faults have struck make of its deed. -/
structure Comes (g : γ) (superstep node : Nat) (before : Deed M) (calls : List (VertexCall M))
    (faults : List (Option Fault)) (after : Deed M) : Prop where
  row : (∀ call ∈ calls, ¬ call.Sets) → after.row = before.row
  halted : after.halted = true ↔ before.halted = true ∨ .halt ∈ calls
  raised : after.raised = true ↔ before.raised = true ∨ .raise ∈ calls
  acts : ∃ acts, after.events = before.events ++ acts ∧ (∀ event ∈ acts, event.IsAct superstep node) ∧
    Sends g node calls faults (acts.filterMap Event.letter?)

namespace Comes

variable {g : γ} {before between after : Deed M} {call : VertexCall M} {calls more : List (VertexCall M)}
  {struck : Option Fault} {faults further : List (Option Fault)}

theorem refl (deed : Deed M) : Comes g superstep node deed [] [] deed where
  row _ := rfl
  halted := by simp
  raised := by simp
  acts := ⟨[], by simp, by simp, .nil⟩

theorem trans (first : Comes g superstep node before calls faults between)
    (second : Comes g superstep node between more further after) :
    Comes g superstep node before (calls ++ more) (faults ++ further) after where
  row none := (second.row fun call member => none call (List.mem_append_right _ member)).trans
    (first.row fun call member => none call (List.mem_append_left _ member))
  halted := by rw [second.halted, first.halted, List.mem_append, or_assoc]
  raised := by rw [second.raised, first.raised, List.mem_append, or_assoc]
  acts := by
    obtain ⟨acts, events, own, sends⟩ := first.acts
    obtain ⟨others, eventsToo, ownToo, sendsToo⟩ := second.acts
    refine ⟨acts ++ others, by rw [eventsToo, events, List.append_assoc], fun event member => ?_, ?_⟩
    · exact (List.mem_append.mp member).elim (own event) (ownToo event)
    · rw [List.filterMap_append]
      exact sends.append sendsToo

/-- A call that neither votes nor raises the flag. If it succeeds it has sent its letters, else no more than those. -/
theorem one (acts : List (Event M)) (row : ¬ call.Sets → after.row = before.row)
    (halted : after.halted = before.halted) (raised : after.raised = before.raised)
    (events : after.events = before.events ++ acts) (own : ∀ event ∈ acts, event.IsAct superstep node)
    (upTo : acts.filterMap Event.letter? <+: call.letters g node)
    (whole : struck = none → acts.filterMap Event.letter? = call.letters g node) (votes : call ≠ .halt)
    (raises : call ≠ .raise) : Comes g superstep node before [call] [struck] after where
  row none := row (none call (List.mem_singleton_self _))
  halted := by simp [halted, Ne.symm votes]
  raised := by simp [raised, Ne.symm raises]
  acts := ⟨acts, events, own, by simpa using Sends.cons upTo whole .nil⟩

theorem halt (deed : Deed M) : Comes g superstep node deed [.halt] [none]
    ({ deed with halted := true }.note (.halt superstep node)) where
  row _ := rfl
  halted := by simp [note]
  raised := by simp [note]
  acts := ⟨[.halt superstep node], rfl, by simp [Event.IsAct.halt], .cons List.prefix_rfl (fun _ => rfl) .nil⟩

theorem raise (deed : Deed M) : Comes g superstep node deed [.raise] [none] { deed with raised := true } where
  row _ := rfl
  halted := by simp
  raised := by simp
  acts := ⟨[], by simp, by simp, .cons List.prefix_rfl (fun _ => rfl) .nil⟩

end Comes
end Deed

/-! ## Desks -/

namespace Desk

variable [Element M] {g : γ} {start d : Desk M} {deed : Deed M}

/-- Calls which these faults have struck have led to a desk at which the node has come to what they make of a deed. -/
def ComesTo (schema : Schema) (nodes : Nat) (g : γ) (superstep node : Nat) (start : Desk M) (deed : Deed M)
    (calls : List (VertexCall M)) (faults : List (Option Fault)) (d : Desk M) : Prop :=
  ∃ next, Traces schema nodes node start d next ∧ deed.Comes g superstep node calls faults next

namespace Traces

variable (traces : Traces schema nodes node start d deed)
include traces

/-- A call that leaves the desk as it is, since it has no letters or has failed. -/
theorem stays {call : VertexCall M} {struck : Option Fault} (silent : struck = none → call.letters g node = [])
    (votes : call ≠ .halt) (raises : call ≠ .raise) :
    ComesTo schema nodes g superstep node start deed [call] [struck] d :=
  ⟨deed, traces, .one [] (fun _ => rfl) rfl rfl (by simp) (by simp) List.nil_prefix
    (fun calm => (silent calm).symm) votes raises⟩

theorem looks {α : Type} {step : Attempt (Desk M) α} (same : (step.outcome d).2 = d) {call : VertexCall M}
    (silent : call.letters g node = []) (votes : call ≠ .halt) (raises : call ≠ .raise) :
    ComesTo schema nodes g superstep node start deed [call] [(step.fault?.run d).1] (step.fault?.run d).2 := by
  rw [step.state_fault?, same]
  exact traces.stays (fun _ => silent) votes raises

theorem sets (inside : node < nodes) (change : PropertyStore → Except Fault PropertyStore) {kind : PropertyKind}
    {key : String} {word : UInt64} (changes : change d.board.store =
      ((schema.place kind key).mapError .property).map fun index => d.board.store.putWord index node word)
    {call : VertexCall M} (sets : call.Sets) :
    ComesTo schema nodes g superstep node start deed [call]
      [((Desk.atBoard (Handler.update change)).fault?.run d).1]
      ((Desk.atBoard (Handler.update change)).fault?.run d).2 := by
  have silent : call.letters g node = [] := by cases sets <;> rfl
  have votes : call ≠ .halt := by rintro rfl; cases sets
  have raises : call ≠ .raise := by rintro rfl; cases sets
  cases place : schema.place kind key with
  | error error =>
    have failed : (Desk.atBoard (Handler.update change)).outcome d = (.error (.property error), d) := by
      rw [atBoard, Attempt.outcome_within, Handler.update, Attempt.outcome_replace, changes, place]
      rfl
    rw [Attempt.fault?_of_error failed]
    exact traces.stays (by simp) votes raises
  | ok index =>
    have done : (Desk.atBoard (Handler.update change)).outcome d =
        (.ok (), { d with board := d.board.setStore (d.board.store.putWord index node word) }) := by
      rw [atBoard, Attempt.outcome_within, Handler.update, Attempt.outcome_replace, changes, place]
      rfl
    rw [Attempt.fault?_of_ok done]
    exact ⟨deed.putWord index word, traces.putWord inside (Schema.place_lt place) word,
      .one [] (fun none => absurd sets none) rfl rfl (by simp [Deed.putWord]) (by simp) List.nil_prefix
        (fun _ => silent.symm) votes raises⟩

/-- A message is put on its way to targets one after the other, up to the first one that does not accept it. -/
theorem postAll (superstep : Nat) (message : M) (targets : List Nat) :
    ∃ result e part, (targets.forM fun target => Desk.post superstep node target message).outcome d = (result, e) ∧
      part <+: targets ∧ (result = .ok () → part = targets) ∧
      Traces schema nodes node start e (deed.sends superstep node (part.map (·, message))) := by
  -- on the targets, from any desk and its deed: the first one leaves other ones for the rest
  induction targets generalizing d deed with
  | nil => exact ⟨.ok (), d, [], rfl, List.prefix_rfl, fun _ => rfl, by simpa using traces⟩
  | cons target targets inductionHypothesis =>
    match posted : (Desk.post superstep node target message).outcome d with
    | (.error fault, e) =>
      -- a message that is not accepted has changed nothing
      refine ⟨.error fault, e, [], Attempt.outcome_bind_of_error posted, List.nil_prefix, by simp, ?_⟩
      rw [Desk.post, Attempt.outcome_of] at posted
      split at posted
      · obtain rfl := (Prod.mk.inj posted).2
        simpa using traces
      · cases posted
    | (.ok answer, between) =>
      obtain ⟨result, e, part, ran, upTo, whole, final⟩ := inductionHypothesis (traces.post posted)
      exact ⟨result, e, target :: part, (Attempt.outcome_bind_of_ok posted).trans ran,
        (List.prefix_cons_inj target).mpr upTo, fun calm => by rw [whole calm], by simpa using final⟩

/-- A message is sent to the first ones of its targets, and to all of them if that does not fail. -/
theorem sends {call : VertexCall M} (votes : call ≠ .halt) (raises : call ≠ .raise) {targets : List Nat}
    {message : M} (same : call.letters g node = targets.map (·, message)) :
    ComesTo schema nodes g superstep node start deed [call]
      [((Desk.send superstep node targets message).fault?.run d).1]
      ((Desk.send superstep node targets message).fault?.run d).2 := by
  obtain ⟨result, e, part, ran, upTo, whole, final⟩ := traces.postAll superstep message targets
  have letters : ((part.map (·, message)).map fun letter =>
      Event.send superstep node letter.1 letter.2).filterMap Event.letter? = part.map (·, message) := by
    simp [List.filterMap_map, Event.letter?, Function.comp_def]
  have own : ∀ event ∈ (part.map (·, message)).map fun letter => Event.send superstep node letter.1 letter.2,
      event.IsAct superstep node := by
    intro event member
    obtain ⟨letter, -, rfl⟩ := List.mem_map.mp member
    exact .send letter.1 letter.2
  have some : part.map (·, message) <+: call.letters g node := by
    rw [same]
    exact upTo.map _
  cases result with
  | error fault =>
    rw [Desk.send, Attempt.fault?_bind_of_error ran]
    exact ⟨_, final, .one _ (fun _ => rfl) rfl rfl rfl own (letters.symm ▸ some) (by simp) votes raises⟩
  | ok answer =>
    rw [Desk.send, Attempt.fault?_bind_of_ok ran, Attempt.fault?_of_ok (Attempt.outcome_change _ _)]
    refine ⟨_, final.marked _ _, .one _ (fun _ => rfl) rfl rfl rfl own (letters.symm ▸ some) (fun _ => ?_) votes raises⟩
    rw [letters, same, whole rfl]

theorem called (g : γ) (superstep : Nat) (inside : node < nodes) (call : VertexCall M) :
    ComesTo schema nodes g superstep node start deed [call]
      [((Handler.vertex g superstep node call).fault?.run d).1]
      ((Handler.vertex g superstep node call).fault?.run d).2 := by
  cases call with
  | degree | neighbors | weightedNeighbors | getLong | getDouble =>
    exact traces.looks rfl rfl (by simp) (by simp)
  | setLong key value =>
    exact traces.sets inside (·.writeLong key node value) (traces.store.writeLong key inside value) (.setLong key value)
  | setDouble key value =>
    exact traces.sets inside (·.writeDouble key node value) (traces.store.writeDouble key inside value)
      (.setDouble key value)
  | send target message =>
    rw [Handler.vertex]
    dsimp only
    split
    · exact traces.sends (by simp) (by simp) rfl
    · rw [Attempt.fault?_of_error (Attempt.outcome_throw _ d)]
      exact traces.stays (by simp) (by simp) (by simp)
  | sendToNeighbors message =>
    rw [Handler.vertex]
    cases found : Handler.targets g node with
    | error fault =>
      have struck : (Attempt.lift (.error fault) >>= fun targets : Array Nat =>
          Desk.send superstep node targets.toList message).outcome d = (.error fault, d) := rfl
      rw [Attempt.fault?_of_error struck]
      exact traces.stays (by simp) (by simp) (by simp)
    | ok targets =>
      have asked : (Attempt.lift (.ok targets)).outcome d = (.ok targets, d) := rfl
      rw [Attempt.fault?_bind_of_ok asked]
      exact traces.sends (by simp) (by simp) (by simp [VertexCall.letters, found])
  | halt =>
    exact ⟨_, (traces.putVote inside).note (rfl : (Event.halt superstep node : Event M).letter? = none), .halt deed⟩
  | raise => exact ⟨_, traces.raise, .raise deed⟩

theorem calledAll (g : γ) (superstep : Nat) (inside : node < nodes) (calls : List (VertexCall M)) :
    ComesTo schema nodes g superstep node start deed calls
      ((calls.mapM fun call => (Handler.vertex g superstep node call).fault?).run d).1
      ((calls.mapM fun call => (Handler.vertex g superstep node call).fault?).run d).2 := by
  induction calls generalizing d deed with
  | nil => exact ⟨deed, traces, .refl deed⟩
  | cons call calls inductionHypothesis =>
    rw [Lockstep.run_mapM_cons]
    obtain ⟨between, tracesToo, comes⟩ := traces.called g superstep inside call
    obtain ⟨next, final, rest⟩ := inductionHypothesis tracesToo
    exact ⟨next, final, comes.trans rest⟩

end Traces

/-! ## Marks -/

theorem vertex_sent {call : VertexCall M} {answer : (VertexContext M).Answer call} {e : Desk M}
    (ran : (Handler.vertex g superstep node call).outcome d = (.ok answer, e)) :
    e.sent = (d.sent || !(call.letters g node).isEmpty) := by
  cases call with
  | send target message =>
    rw [Handler.vertex] at ran
    split at ran
    · exact send_sent ran
    · cases ran
  | sendToNeighbors message =>
    obtain ⟨targets, middle, asked, sends⟩ := Attempt.outcome_bind_ok ran
    obtain ⟨found, rfl⟩ := Prod.mk.inj asked
    rw [send_sent sends, VertexCall.letters, found]
    simp
  -- no other call sends anything
  | _ =>
    obtain rfl := (Prod.mk.inj ran).2
    simp [VertexCall.letters, onBoard]

/-- Calls that all succeed have marked the task if one of them was to send something. -/
theorem calls_sent (g : γ) (superstep node : Nat) (calls : List (VertexCall M)) (d : Desk M)
    (calm : ∀ struck ∈ ((calls.mapM fun call => (Handler.vertex g superstep node call).fault?).run d).1,
      struck = none) :
    ((calls.mapM fun call => (Handler.vertex g superstep node call).fault?).run d).2.sent = true ↔
      d.sent = true ∨ ∃ call ∈ calls, call.letters g node ≠ [] := by
  induction calls generalizing d with
  | nil => exact ⟨.inl, fun sent => sent.resolve_right (by simp)⟩
  | cons call calls inductionHypothesis =>
    rw [Lockstep.run_mapM_cons] at calm ⊢
    match called : (Handler.vertex g superstep node call).outcome d with
    | (.error fault, e) =>
      rw [Attempt.fault?_of_error called] at calm
      cases calm _ (List.mem_cons_self ..)
    | (.ok answer, e) =>
      rw [Attempt.fault?_of_ok called] at calm ⊢
      rw [inductionHypothesis e fun struck member => calm struck (List.mem_cons_of_mem _ member), vertex_sent called]
      simp [or_assoc]

/-! ## Confinement -/

/-- Calls of a node which these faults have struck change nothing at a desk but what is the node's own, and what is on
its way. -/
structure Confined (g : γ) (superstep node nodes : Nat) (d : Desk M) (calls : List (VertexCall M))
    (faults : List (Option Fault)) (e : Desk M) : Prop where
  numbers : ∀ other < nodes, other ≠ node → ∀ key, e.board.store.readLong key other = d.board.store.readLong key other ∧
    e.board.store.readDouble key other = d.board.store.readDouble key other
  votes : ∀ other < nodes, other ≠ node → e.board.votes.test other = d.board.votes.test other
  inbox : d.board.mail.SameInbox e.board.mail
  /-- What is asked of the graph is answered as before. -/
  graph : ∀ other (call : VertexCall M), call.AsksGraph →
    ((Handler.vertex g superstep other call).outcome e).1 = ((Handler.vertex g superstep other call).outcome d).1
  store : (∀ call ∈ calls, ¬ call.Sets) → e.board.store = d.board.store
  vote : e.board.votes.test node = true ↔ d.board.votes.test node = true ∨ .halt ∈ calls
  letters : ∃ letters, Sends g node calls faults letters ∧
    Mail.Takes nodes letters d.board.mail d.outbox e.board.mail e.outbox
  sent : (∀ struck ∈ faults, struck = none) →
    (e.sent = true ↔ d.sent = true ∨ ∃ call ∈ calls, call.letters g node ≠ [])
  raised : e.board.raised = true ↔ d.board.raised = true ∨ .raise ∈ calls
  anySent : e.board.anySent = d.board.anySent
  progress : e.board.progress = d.board.progress
  processed : e.processed = d.processed
  record : ∃ acts, e.board.record.toList = d.board.record.toList ++ acts ∧
    ∀ event ∈ acts, event.IsAct superstep node

theorem calls_framed (g : γ) (superstep node : Nat) (calls : List (VertexCall M)) (d : Desk M) :
    d.Framed ((calls.mapM fun call => (Handler.vertex g superstep node call).fault?).run d).2 := by
  refine Lockstep.keeps_mapM (fun call s framed => ?_) calls (.refl d)
  rw [Attempt.state_fault?]
  exact Handler.vertex_keeps Framed.moves g call s framed

theorem Sound.confined (sound : d.Sound schema nodes) (inside : node < nodes) (g : γ) (superstep : Nat)
    (calls : List (VertexCall M)) :
    d.Confined g superstep node nodes calls
      ((calls.mapM fun call => (Handler.vertex g superstep node call).fault?).run d).1
      ((calls.mapM fun call => (Handler.vertex g superstep node call).fault?).run d).2 := by
  have board : d.board.Sound schema nodes := sound
  have framed := calls_framed g superstep node calls d
  obtain ⟨next, traces, comes⟩ :=
    (follows_share board.filed board.votes).toTraces.calledAll g superstep inside calls
  obtain ⟨acts, events, own, sends⟩ := comes.acts
  have letters : next.letters = acts.filterMap Event.letter? := by
    rw [Deed.letters, events]
    rfl
  constructor
  case numbers =>
    -- a number is read from the word of its node, and that is the same
    intro other within different key
    have same := fun index => (traces.word index other within).trans (if_neg different)
    rw [traces.store.readLong key within, traces.store.readDouble key within, board.filed.readLong key within,
      board.filed.readDouble key within]
    simp only [same, and_self]
  case votes => exact fun other within different => (traces.vote other within).trans (if_neg different)
  case inbox => exact Mail.sameInbox_foldAll traces.mail
  case graph => exact fun other call asks => by cases asks <;> rfl
  case store =>
    -- words decide a store, and the row of the node has not changed either
    intro none
    refine traces.store.ext board.filed fun index other within => ?_
    rw [traces.word index other within, comes.row none]
    split
    · next here => rw [here]; rfl
    · rfl
  case vote =>
    rw [traces.vote node inside, if_pos rfl]
    exact comes.halted
  case letters =>
    refine ⟨_, sends, ?_⟩
    rw [← letters, traces.outbox]
    exact board.mail.takes traces.mail d.outbox
  case sent => exact calls_sent g superstep node calls d
  case raised =>
    rw [traces.raised, Bool.or_eq_true, comes.raised]
    simp [Board.share]
  case anySent => exact traces.anySent
  case progress => exact framed.board.progress
  case processed => exact framed.processed
  case record => exact ⟨acts, by rw [traces.record, events]; rfl, own⟩

end Desk

/-! ## Runs -/

namespace Engine

variable [Element M] {e : Engine γ M} {executor : Nat → Executor (Board M)} {job : Job γ M} {start : Board M} {d : Desk M}

/-- In whatever superstep of a run a node computes, and whatever calls it makes there, all that it changes is its own or
on its way to other nodes. So it is with every program: the calls that it makes lead to the state that it leaves, and
none of them has failed if the program succeeds. -/
theorem confinement (prepared : e.prepare executor = .ok (job, start)) (computes : job.Computes start superstep node d) :
    (∀ calls : List (VertexCall M), ∃ faults after,
      (calls.mapM fun call => (Handler.vertex job.graph superstep node call).fault?).run d = (faults, after) ∧
      d.Confined job.graph superstep node (GraphView.nodeCount e.graph) calls faults after) ∧
    ∀ {α : Type} (p : Program (VertexContext M) α), ∃ calls faults,
      d.Confined job.graph superstep node (GraphView.nodeCount e.graph) calls faults
        ((p.run (Handler.vertex job.graph superstep node)).outcome d).2 ∧
      ∀ value, ((p.run (Handler.vertex job.graph superstep node)).outcome d).1 = .ok value →
        ∀ struck ∈ faults, struck = none := by
  obtain ⟨schema, mail, spans, declared, cut, made, rfl, rfl⟩ := prepare_ok prepared
  obtain ⟨inside, sound⟩ := computes.sound (tile_spans cut)
    ⟨PropertyStore.regular_new schema _, BitSet.regular_new _, Mail.sound_new made⟩
  have confined := sound.confined inside e.graph superstep
  refine ⟨fun calls => ⟨_, _, rfl, confined calls⟩, fun p => ?_⟩
  obtain ⟨calls, state, calm⟩ := p.run_calls (Handler.vertex e.graph superstep node) d
  exact ⟨calls, _, state ▸ confined calls, calm⟩

/-! ### Two nodes in one task -/

/-- The two nodes that greet each other, in one task. What they hear is summed up on its way. -/
def jointEngine : Engine RowGraph Int64 where
  graph := greetingEngine.graph
  computation := { greeting with reducer := some .sum }
  config := { greetingEngine.config with partitioning := .range, minBatchSize := 2 }

def jointJob : Job RowGraph Int64 := ⟨jointEngine.graph, jointEngine.computation, [⟨0, 2⟩], jointEngine.onPool⟩

def jointStart : Board Int64 :=
  ⟨.new ⟨[⟨"heard", .long, .exposed⟩]⟩ 2, .new 2, .reduced (.new 2 .sum), false, false, none, #[]⟩

/-- The desk of the task, first behind the first node and then with the second one set up. -/
def jointVisited : Desk Int64 := ((jointJob.visitAll false 0 [0]).outcome { board := jointStart }).2

def jointReady : Desk Int64 :=
  ((jointJob.setUp 1).outcome { jointVisited with processed := jointVisited.processed + 1 }).2

/-- Calls of which three fail: a sum is too great for its type, a property is of the other kind, and a message is to no
node. -/
def failingCalls : List (VertexCall Int64) :=
  [.setLong "heard" 7, .sendToNeighbors 5, .sendToNeighbors 9223372036854775807, .getDouble "heard", .halt, .send 9 0]

theorem confinement_joint : ∃ d after faults,
    jointEngine.prepare jointEngine.onPool = .ok (jointJob, jointStart) ∧
      jointJob.Computes jointStart 0 1 d ∧
      (failingCalls.mapM fun call => (Handler.vertex jointJob.graph 0 1 call).fault?).run d = (faults, after) ∧
      faults = [none, none, some .additionOverflow, some (.property (.mismatch "heard" .double .long)), none,
        some (.targetOutOfBounds 9 2)] ∧
      d.Confined jointJob.graph 0 1 2 failingCalls faults after := by
  have before : (jointJob.visitAll false 0 [0]).outcome { board := jointStart } = (.ok (), jointVisited) :=
    Prod.ext (by decide +kernel) (by rw [jointVisited])
  have ready : (jointJob.setUp 1).outcome { jointVisited with processed := jointVisited.processed + 1 } =
      (.ok (), jointReady) := Prod.ext (by decide +kernel) (by rw [jointReady])
  have wakes : (Job.wake 1).outcome jointReady = (.ok true, ((Job.wake 1).outcome jointReady).2) :=
    Prod.ext (by decide +kernel) (by dsimp only)
  have prepared : jointEngine.prepare jointEngine.onPool = .ok (jointJob, jointStart) := rfl
  have computes : jointJob.Computes jointStart 0 1 _ :=
    .awake .start (by decide : 0 < 1) rfl before ready wakes
  obtain ⟨each, -⟩ := confinement prepared computes
  obtain ⟨faults, after, ran, confined⟩ := each failingCalls
  refine ⟨_, after, faults, prepared, computes, ran, ?_, confined⟩
  refine (congrArg Prod.fst ran).symm.trans ?_
  decide +kernel

end Engine
end Calls

end BulkSync
