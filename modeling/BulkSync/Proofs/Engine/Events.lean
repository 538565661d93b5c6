import BulkSync.Proofs.Engine.Work

/-! # Questions about a record

An event belongs to a superstep, and if a node does something in it, to that node. What is asked of the record
about a node in a superstep is answered by the events of that node alone (`eventsOf`), and if they are those of
its deed, by the deed. -/

namespace BulkSync

/-- Only one item contributes to a walk over distinct items. -/
theorem flatMap_only {α β : Type} {items : List α} {f : α → List β} {item : α} (distinct : items.Nodup)
    (member : item ∈ items) (others : ∀ other ∈ items, other ≠ item → f other = []) :
    items.flatMap f = f item := by
  induction items with
  | nil => cases member
  | cons head tail inductionHypothesis =>
    obtain ⟨absent, distinctTail⟩ := List.nodup_cons.mp distinct
    rw [List.flatMap_cons]
    rcases List.mem_cons.mp member with rfl | later
    · have none : tail.flatMap f = [] := List.flatMap_eq_nil_iff.mpr fun other inside =>
        others other (List.mem_cons_of_mem _ inside) fun same => absent (same ▸ inside)
      rw [none, List.append_nil]
    · rw [others head (List.mem_cons_self ..) fun same => absent (same ▸ later), List.nil_append]
      exact inductionHypothesis distinctTail later fun other inside =>
        others other (List.mem_cons_of_mem _ inside)

variable {M : Type}

/-! ## Questions about a record -/

namespace Event

/-- The superstep of an event; nodes are set up in the first one. -/
def superstep : Event M → Nat
  | .setup _ => 0
  | .compute superstep _ _ | .send superstep _ _ _ | .halt superstep _ | .master superstep _
  | .answer superstep _ => superstep

/-- The node that does something in an event. -/
def node? : Event M → Option Nat
  | .setup node | .compute _ node _ | .send _ node _ _ | .halt _ node => some node
  | .master _ _ | .answer _ _ => none

/-- The messages with which a node computes in a superstep. -/
def messages? (superstep node : Nat) : Event M → Option (Messages M)
  | .compute s v messages => if s = superstep ∧ v = node then some messages else none
  | _ => none

/-- The message that one node sends to another one in a superstep. -/
def message? (superstep source target : Nat) : Event M → Option M
  | .send s u v message => if s = superstep ∧ u = source ∧ v = target then some message else none
  | _ => none

/-- Whether a node does something in a superstep in an event. -/
def isOf (superstep node : Nat) (event : Event M) : Bool :=
  event.superstep == superstep && event.node? == some node

theorem isOf_iff {superstep node : Nat} {event : Event M} :
    event.isOf superstep node = true ↔ event.superstep = superstep ∧ event.node? = some node := by
  simp [isOf]

end Event

/-- The events of a node in a superstep. -/
def eventsOf (record : List (Event M)) (superstep node : Nat) : List (Event M) :=
  record.filter (Event.isOf superstep node)

/-- The messages of each call to compute of a node in a superstep. -/
def computesOf (record : List (Event M)) (superstep node : Nat) : List (Messages M) :=
  record.filterMap (Event.messages? superstep node)

/-- The messages from one node to another one in a superstep, in the order of sending. -/
def messagesOf (record : List (Event M)) (superstep source target : Nat) : List M :=
  record.filterMap (Event.message? superstep source target)

/-- The messages to a node in a superstep by ascending sender, and for each sender in the order of
sending. -/
def sentTo (nodes : Nat) (record : List (Event M)) (superstep target : Nat) : List M :=
  (List.range nodes).flatMap fun source => messagesOf record superstep source target

/-- A question about a node in a superstep is one about its events. -/
theorem filterMap_eventsOf {β : Type} {ask : Event M → Option β} {superstep node : Nat}
    (own : ∀ event, ask event ≠ none → event.isOf superstep node = true) (record : List (Event M)) :
    (eventsOf record superstep node).filterMap ask = record.filterMap ask := by
  rw [eventsOf, List.filterMap_filter]
  congr 1
  funext event
  cases asked : ask event with
  | none => simp
  | some answer => rw [if_pos (own event (by simp [asked]))]

theorem computesOf_eventsOf (record : List (Event M)) (superstep node : Nat) :
    computesOf (eventsOf record superstep node) superstep node = computesOf record superstep node := by
  apply filterMap_eventsOf
  intro event asked
  cases event <;> simp_all [Event.messages?, Event.isOf, Event.superstep, Event.node?]

theorem messagesOf_eventsOf (record : List (Event M)) (superstep source target : Nat) :
    messagesOf (eventsOf record superstep source) superstep source target =
      messagesOf record superstep source target := by
  apply filterMap_eventsOf
  intro event asked
  cases event <;> simp_all [Event.message?, Event.isOf, Event.superstep, Event.node?]

theorem mem_eventsOf {record : List (Event M)} {superstep node : Nat} {event : Event M} :
    event ∈ eventsOf record superstep node ↔
      event ∈ record ∧ event.superstep = superstep ∧ event.node? = some node := by
  rw [eventsOf, List.mem_filter, Event.isOf_iff]

theorem mem_messagesOf {record : List (Event M)} {superstep source target : Nat} {message : M} :
    message ∈ messagesOf record superstep source target ↔
      .send superstep source target message ∈ record := by
  rw [messagesOf, List.mem_filterMap]
  constructor
  · rintro ⟨event, member, asked⟩
    cases event <;> simp only [Event.message?, reduceCtorEq] at asked
    split at asked
    · next same =>
      obtain ⟨rfl, rfl, rfl⟩ := same
      cases asked
      exact member
    · cases asked
  · exact fun member => ⟨_, member, by simp [Event.message?]⟩

/-! ## The events of a deed -/

section Deed

variable {γ : Type} [GraphView γ] [Element M] {job : Job γ M} {schema : Schema}
  {superstep node : Nat} {b : Board M}

/-- Whether a node computes in a superstep that starts from a board. -/
def Board.wakes (b : Board M) (node : Nat) : Bool :=
  !b.votes.test node || b.mail.hasMessages node

omit [GraphView γ] in
theorem Board.wakes_share (b : Board M) (node : Nat) :
    (!(b.share node).halted || !(b.mail.messages node).isEmpty) = b.wakes node := by
  rw [Board.wakes, Mail.hasMessages_eq]
  rfl

/-- What the events of a deed are, and the vote that it leaves. -/
theorem Job.Acts.shape (acts : job.Acts schema superstep b node) :
    ∃ rest : List (Event M), (∀ event ∈ rest, event.IsAct superstep node) ∧
      (job.deed schema superstep b node).events =
        (if superstep = 0 then [.setup node] else []) ++
          (if b.wakes node then .compute superstep node (b.mail.messages node) :: rest else []) ∧
      (job.deed schema superstep b node).halted =
        if b.wakes node then rest.any Event.isHalt else true := by
  obtain ⟨rest, shape, events, vote⟩ := Deed.visit_shape rfl acts
  rw [Board.wakes_share] at events vote
  exact ⟨rest, shape, events, vote⟩

omit [Element M] in
theorem Event.IsAct.isOf {event : Event M} (act : event.IsAct superstep node) :
    event.isOf superstep node = true := by
  cases act <;> simp [Event.isOf, Event.superstep, Event.node?]

theorem Job.Acts.isOf (acts : job.Acts schema superstep b node) :
    ∀ event ∈ (job.deed schema superstep b node).events, event.isOf superstep node = true := by
  obtain ⟨rest, shape, events, _⟩ := acts.shape
  intro event member
  rw [events] at member
  rcases List.mem_append.mp member with setUp | computed
  · split at setUp
    · next zero =>
      rw [List.mem_singleton.mp setUp]
      simp [Event.isOf, Event.superstep, Event.node?, zero]
    · cases setUp
  · split at computed
    · rcases List.mem_cons.mp computed with rfl | later
      · simp [Event.isOf, Event.superstep, Event.node?]
      · exact (shape event later).isOf
    · cases computed

theorem Job.Acts.computesOf_events (acts : job.Acts schema superstep b node) :
    computesOf (job.deed schema superstep b node).events superstep node =
      if b.wakes node then [b.mail.messages node] else [] := by
  obtain ⟨rest, shape, events, _⟩ := acts.shape
  have silent : rest.filterMap (Event.messages? superstep node) = [] := by
    rw [List.filterMap_eq_nil_iff]
    intro event member
    cases shape event member <;> rfl
  rw [events, computesOf, List.filterMap_append]
  split <;> split <;> simp [Event.messages?, silent]

/-- What has been recorded of a node when some nodes have been visited is what its deed says. -/
theorem Job.eventsOf_deeds {visited : List Nat} (distinct : visited.Nodup)
    (acts : ∀ node ∈ visited, job.Acts schema superstep b node) (node : Nat) :
    eventsOf (visited.flatMap fun node => (job.deed schema superstep b node).events) superstep node =
      if node ∈ visited then (job.deed schema superstep b node).events else [] := by
  -- another node's events are not those of this one
  have others : ∀ other ∈ visited, other ≠ node →
      (job.deed schema superstep b other).events.filter (Event.isOf superstep node) = [] := by
    intro other member different
    refine List.filter_eq_nil_iff.mpr fun event own of => different ?_
    have ofOther := (Event.isOf_iff.mp ((acts other member).isOf event own)).2
    rw [(Event.isOf_iff.mp of).2] at ofOther
    exact (Option.some.inj ofOther).symm
  rw [eventsOf, List.filter_flatMap]
  split
  · next member =>
    rw [flatMap_only distinct member others]
    exact List.filter_eq_self.mpr (acts node member).isOf
  · next absent =>
    exact List.flatMap_eq_nil_iff.mpr fun other member => others other member fun same => absent (same ▸ member)

/-- What the tasks of a superstep enter into the record: what each node does, and nothing else. What different
nodes do can come in any order. -/
structure Job.Recorded (job : Job γ M) (schema : Schema) (nodes superstep : Nat) (b : Board M)
    (acts : List (Event M)) : Prop where
  own : ∀ event ∈ acts, event.superstep = superstep ∧ ∃ node < nodes, event.node? = some node
  each : ∀ node < nodes, eventsOf acts superstep node = (job.deed schema superstep b node).events

/-- Nodes that are visited one after the other are recorded one after the other. -/
theorem Job.recorded_visited {nodes : Nat} {visited : List Nat} (all : visited.Perm (List.range nodes))
    (acts : ∀ node < nodes, job.Acts schema superstep b node) : job.Recorded schema nodes superstep b
      (visited.flatMap fun node => (job.deed schema superstep b node).events) := by
  have inside : ∀ node, node ∈ visited ↔ node < nodes := fun node => by rw [all.mem_iff, List.mem_range]
  refine ⟨fun event member => ?_, fun node below => ?_⟩
  · obtain ⟨node, here, own⟩ := List.mem_flatMap.mp member
    have below := (inside node).mp here
    obtain ⟨superstep, of⟩ := Event.isOf_iff.mp ((acts node below).isOf event own)
    exact ⟨superstep, node, below, of⟩
  · rw [Job.eventsOf_deeds (all.nodup_iff.mpr List.nodup_range) fun other here => acts other ((inside other).mp here),
      if_pos ((inside node).mpr below)]

end Deed

end BulkSync
