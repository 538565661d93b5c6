import BulkSync.Engine.Handler
import BulkSync.Proofs.Property.Words

/-! # The deed of a node

Seen from a node, a visit is a matter of its own: it starts from the numbers and the vote of the node and
from the messages that it has received, and it ends with new numbers, a new vote and some events. No
other node, no mailbox and no task occurs in `Deed.visit`; the schema says where a number lies in the
row of the node.

The events of a deed have one shape (`visit_shape`): in the first superstep the node is set up; if it is
awake or a message wakes it up, it computes, and then sends messages and votes. -/

namespace BulkSync

variable {M : Type}

/-- The letter that is sent with an event. -/
def Event.letter? : Event M → Option (Nat × M)
  | .send _ _ target message => some (target, message)
  | _ => none

/-- Whether an event is a vote to halt. -/
def Event.isHalt : Event M → Bool
  | .halt _ _ => true
  | _ => false

/-- An event in which a node that computes in a superstep sends a message or votes. -/
inductive Event.IsAct (superstep node : Nat) : Event M → Prop
  | send (target : Nat) (message : M) : IsAct superstep node (.send superstep node target message)
  | halt : IsAct superstep node (.halt superstep node)

/-- What there is of a node during a visit: its numbers, its vote, whether it has raised the stop flag,
and what has happened. -/
structure Deed (M : Type) where
  row : Nat → UInt64
  halted : Bool
  raised : Bool := false
  events : List (Event M) := []

namespace Deed

/-- The letters that are sent. -/
def letters (d : Deed M) : List (Nat × M) := d.events.filterMap Event.letter?

/-- The deed with another event. -/
def note (event : Event M) (d : Deed M) : Deed M := { d with events := d.events ++ [event] }

/-- The deed with letters that have been sent. -/
def sends (superstep node : Nat) (letters : List (Nat × M)) (d : Deed M) : Deed M :=
  { d with events := d.events ++ letters.map fun letter => .send superstep node letter.1 letter.2 }

/-- The deed with another word in a column. -/
def putWord (index : Nat) (word : UInt64) (d : Deed M) : Deed M :=
  { d with row := fun other => if other = index then word else d.row other }

/-! ### Letters -/

theorem letters_note (d : Deed M) {event : Event M} (other : event.letter? = none) :
    (d.note event).letters = d.letters := by
  simp [letters, note, other]

@[simp] theorem letters_note_send (superstep node target : Nat) (message : M) (d : Deed M) :
    (d.note (.send superstep node target message)).letters = d.letters ++ [(target, message)] := by
  simp [letters, note, Event.letter?]

@[simp] theorem letters_sends (superstep node : Nat) (letters : List (Nat × M)) (d : Deed M) :
    (d.sends superstep node letters).letters = d.letters ++ letters := by
  simp [Deed.letters, sends, List.filterMap_map, Event.letter?, Function.comp_def]

@[simp] theorem sends_nil (superstep node : Nat) (d : Deed M) : d.sends superstep node [] = d := by
  simp [sends]

@[simp] theorem note_sends (superstep node target : Nat) (message : M) (letters : List (Nat × M)) (d : Deed M) :
    (d.note (.send superstep node target message)).sends superstep node letters =
      d.sends superstep node ((target, message) :: letters) := by
  simp [sends, note]

/-! ## Calls -/

/-- Raises the stop flag. -/
def raise : Attempt (Deed M) Unit := Attempt.change fun d => { d with raised := true }

/-- Reads the number under a key. -/
def read (α : Type) [Element α] (schema : Schema) (kind : PropertyKind) (key : String) :
    Attempt (Deed M) α :=
  Attempt.inspect fun d =>
    ((schema.place kind key).mapError .property).map fun index => Element.ofWord (d.row index)

/-- Sets the number under a key. -/
def write (schema : Schema) (kind : PropertyKind) (key : String) (word : UInt64) :
    Attempt (Deed M) Unit :=
  Attempt.replace fun d =>
    ((schema.place kind key).mapError .property).map fun index => d.putWord index word

section Calls

variable {γ : Type} [GraphView γ]

/-- The calls of the set-up of a node. -/
def setup (g : γ) (schema : Schema) (node : Nat) :
    (call : SetupCall) → Attempt (Deed M) (SetupContext.Answer call)
  | .degree => Attempt.lift (GraphView.degree g node)
  | .setLong key value => write schema .long key (Element.toWord value)
  | .setDouble key value => write schema .double key (Element.toWord value)
  | .raise => raise

/-- The calls of a node in a superstep. -/
def vertex (g : γ) (schema : Schema) (superstep node : Nat) :
    (call : VertexCall M) → Attempt (Deed M) ((VertexContext M).Answer call)
  | .degree => Attempt.lift (GraphView.degree g node)
  | .neighbors more => Attempt.lift (GraphView.foldNeighbors g node (Handler.seeing more) #[])
  | .weightedNeighbors more => Attempt.lift (GraphView.foldWeighted g node (Handler.seeing more) #[])
  | .getLong key => read Int64 schema .long key
  | .getDouble key => read Binary64 schema .double key
  | .setLong key value => write schema .long key (Element.toWord value)
  | .setDouble key value => write schema .double key (Element.toWord value)
  | .send target message =>
      let nodes := GraphView.nodeCount g
      if target < nodes then Attempt.change (note (.send superstep node target message))
      else throw (.targetOutOfBounds target nodes)
  | .sendToNeighbors message => do
      let targets ← Attempt.lift (Handler.targets g node)
      targets.toList.forM fun target => Attempt.change (note (.send superstep node target message))
  | .halt => Attempt.change fun d => { d with halted := true }.note (.halt superstep node)
  | .raise => raise

/-- Messages that are sent one after the other. -/
theorem outcome_sends (superstep node : Nat) (message : M) (targets : List Nat) (d : Deed M) :
    (targets.forM fun target => Attempt.change (note (.send superstep node target message))).outcome d =
      (.ok (), d.sends superstep node (targets.map (·, message))) := by
  induction targets generalizing d with
  | nil => simp
  | cons target targets inductionHypothesis =>
    refine (Attempt.outcome_bind_of_ok (Attempt.outcome_change _ _)).trans ?_
    rw [inductionHypothesis, note_sends]
    rfl

/-! ## The visit -/

/-- Sets up the node, which is done in the first superstep only. -/
def setUp (g : γ) (c : Computation M) (schema : Schema) (superstep node : Nat) :
    Attempt (Deed M) Unit :=
  if superstep = 0 then do
    Attempt.change (note (.setup node))
    (c.setup ⟨node, GraphView.nodeCount g⟩).run (setup g schema node)
  else pure ()

/-- Whether the node computes. -/
def wake (messages : Messages M) : Attempt (Deed M) Bool :=
  Attempt.of fun d =>
    if !d.halted then (.ok true, d)
    else if !messages.isEmpty then (.ok true, { d with halted := false })
    else (.ok false, d)

/-- Lets the node compute with its messages. -/
def compute [Element M] (g : γ) (c : Computation M) (schema : Schema) (superstep node : Nat)
    (messages : Messages M) : Attempt (Deed M) Unit := do
  Attempt.change (note (.compute superstep node messages))
  (c.compute ⟨node, superstep, GraphView.nodeCount g⟩ messages.toList).run
    (vertex g schema superstep node)

/-- What a superstep does with the node. -/
def visit [Element M] (g : γ) (c : Computation M) (schema : Schema) (superstep node : Nat)
    (messages : Messages M) : Attempt (Deed M) Unit := do
  setUp g c schema superstep node
  if ← wake messages then compute g c schema superstep node messages

end Calls

/-! ## The shape of a visit -/

section Shape

variable {γ : Type} [GraphView γ] {g : γ} {c : Computation M} {schema : Schema} {superstep node : Nat}
  {messages : Messages M} {d e : Deed M}

theorem write_ok {kind : PropertyKind} {key : String} {word : UInt64} {answer : Unit}
    (ran : (write schema kind key word).outcome d = (.ok answer, e)) :
    ∃ index, schema.place kind key = .ok index ∧ e = d.putWord index word := by
  have wrote := Attempt.outcome_replace_ok ran
  cases place : schema.place kind key with
  | error error => simp [place, mapError_error, Except.map] at wrote
  | ok index =>
    simp only [place, mapError_ok, Except.map, Except.ok.injEq] at wrote
    exact ⟨index, rfl, wrote.symm⟩

/-- Nothing but numbers and the stop flag is set while the node is set up. -/
theorem setup_keeps (halted : Bool) (events : List (Event M)) (call : SetupCall) (d : Deed M)
    (answer : SetupContext.Answer call) (e : Deed M) (same : d.halted = halted ∧ d.events = events)
    (ran : (setup g schema node call).outcome d = (.ok answer, e)) :
    e.halted = halted ∧ e.events = events := by
  cases call with
  | degree | raise =>
    obtain rfl := (Prod.mk.inj ran).2
    exact same
  | setLong key value | setDouble key value =>
    obtain ⟨index, _, rfl⟩ := write_ok ran
    exact same

/-- The acts of a node since some events: messages and votes, and its vote is set if it has voted. -/
structure Acted (superstep node : Nat) (before : List (Event M)) (d : Deed M) : Prop where
  acts : ∃ acts : List (Event M), d.events = before ++ acts ∧
    (∀ event ∈ acts, event.IsAct superstep node) ∧ d.halted = acts.any Event.isHalt

theorem Acted.send {before : List (Event M)} (acted : Acted superstep node before d) (target : Nat)
    (message : M) : Acted superstep node before (d.note (.send superstep node target message)) := by
  obtain ⟨acts, events, shape, vote⟩ := acted
  refine ⟨acts ++ [.send superstep node target message], by simp [note, events], ?_,
    by simpa [note, Event.isHalt] using vote⟩
  intro event member
  rcases List.mem_append.mp member with old | new
  · exact shape event old
  · rw [List.mem_singleton.mp new]
    exact .send target message

theorem Acted.sends {before : List (Event M)} (acted : Acted superstep node before d) (message : M)
    (targets : List Nat) {answer : Unit} (ran : (targets.forM fun target =>
      Attempt.change (note (.send superstep node target message))).outcome d = (.ok answer, e)) :
    Acted superstep node before e := by
  induction targets generalizing d with
  | nil =>
    cases ran
    exact acted
  | cons target targets inductionHypothesis =>
    obtain ⟨_, next, first, rest⟩ := Attempt.outcome_bind_ok ran
    cases first
    exact inductionHypothesis (acted.send target message) rest

theorem Acted.vertex {before : List (Event M)} (call : VertexCall M) (d : Deed M)
    (answer : (VertexContext M).Answer call) (e : Deed M) (acted : Acted superstep node before d)
    (ran : (vertex g schema superstep node call).outcome d = (.ok answer, e)) :
    Acted superstep node before e := by
  cases call with
  | degree | neighbors more | weightedNeighbors more | getLong key | getDouble key =>
    obtain rfl := (Prod.mk.inj ran).2
    exact acted
  | raise =>
    cases ran
    exact ⟨acted.acts⟩
  | setLong key value | setDouble key value =>
    obtain ⟨index, _, rfl⟩ := write_ok ran
    exact ⟨acted.acts⟩
  | send target message =>
    simp only [Deed.vertex] at ran
    split at ran
    · cases ran
      exact acted.send target message
    · simp at ran
  | sendToNeighbors message =>
    obtain ⟨targets, next, first, rest⟩ := Attempt.outcome_bind_ok ran
    obtain rfl := (Prod.mk.inj first).2
    exact acted.sends message targets.toList rest
  | halt =>
    cases ran
    obtain ⟨acts, events, shape, _⟩ := acted
    refine ⟨acts ++ [.halt superstep node], by simp [note, events], ?_, by simp [note, Event.isHalt]⟩
    intro event member
    rcases List.mem_append.mp member with old | new
    · exact shape event old
    · rw [List.mem_singleton.mp new]
      exact .halt

/-- In the first superstep a node is set up, which leaves its vote alone. -/
theorem setUp_shape (fresh : d.events = [])
    (ran : (setUp g c schema superstep node).outcome d = (.ok (), e)) :
    e.halted = d.halted ∧ e.events = if superstep = 0 then [.setup node] else [] := by
  rw [setUp] at ran
  split at ran
  · next zero =>
    obtain ⟨_, noted, first, rest⟩ := Attempt.outcome_bind_ok ran
    cases first
    have kept := Program.run_keeps (fun f : Deed M => f.halted = d.halted ∧ f.events = [.setup node])
      (setup_keeps d.halted [.setup node]) _ (d.note (.setup node)) _ _
      ⟨rfl, by simp [note, fresh]⟩ rest
    simpa [zero] using kept
  · next later =>
    cases ran
    simpa [later] using fresh

/-- What code is run in a visit: that of the set-up in the first superstep, and then, with the vote down, that
of the computation if the node is awake or has messages. -/
theorem visit_runs [Element M] (fresh : d.events = [])
    (ran : (visit g c schema superstep node messages).outcome d = (.ok (), e)) :
    ∃ ready, (setUp g c schema superstep node).outcome d = (.ok (), ready) ∧
      if !d.halted || !messages.isEmpty then
        (compute g c schema superstep node messages).outcome { ready with halted := false } = (.ok (), e)
      else e = ready := by
  obtain ⟨⟨⟩, ready, first, second⟩ := Attempt.outcome_bind_ok ran
  obtain ⟨halted, _⟩ := setUp_shape fresh first
  obtain ⟨awake, woken, third, last⟩ := Attempt.outcome_bind_ok second
  refine ⟨ready, first, ?_⟩
  rw [wake, Attempt.outcome_of] at third
  rw [← halted]
  split at third
  · next up =>
    cases third
    have down : { ready with halted := false } = ready := by
      rw [Bool.not_eq_true'] at up
      rw [← up]
    rw [up, Bool.true_or, if_pos rfl, down]
    exact last
  · next down =>
    split at third
    · next any =>
      cases third
      rw [any, Bool.or_true, if_pos rfl]
      exact last
    · next none =>
      cases third
      cases last
      rw [if_neg (by simp_all)]

/-- What happens in a visit: the set-up in the first superstep, then, of a node that is awake or woken
up, the computation and its acts. Its vote is set in the end if it has voted or slept. -/
theorem visit_shape [Element M] (fresh : d.events = [])
    (ran : (visit g c schema superstep node messages).outcome d = (.ok (), e)) :
    ∃ acts : List (Event M), (∀ event ∈ acts, event.IsAct superstep node) ∧
      e.events = (if superstep = 0 then [.setup node] else []) ++
        (if !d.halted || !messages.isEmpty then .compute superstep node messages :: acts else []) ∧
      e.halted = if !d.halted || !messages.isEmpty then acts.any Event.isHalt else true := by
  obtain ⟨ready, first, second⟩ := visit_runs fresh ran
  obtain ⟨halted, events⟩ := setUp_shape fresh first
  rw [← events]
  split at second
  · next awake =>
    obtain ⟨_, noted, note, runs⟩ := Attempt.outcome_bind_ok second
    cases note
    obtain ⟨acts, made, shape, vote⟩ := Program.run_keeps
      (Acted superstep node (ready.events ++ [.compute superstep node messages])) Acted.vertex _ _ _ _
      ⟨[], by simp [Deed.note], by simp, rfl⟩ runs
    exact ⟨acts, shape, by simpa [awake] using made, by simpa [awake] using vote⟩
  · next asleep =>
    subst second
    have slept : e.halted = true := by
      rw [halted]
      simp_all
    exact ⟨[], by simp, by simp [asleep], by simp [asleep, slept]⟩

end Shape
end Deed
end BulkSync
