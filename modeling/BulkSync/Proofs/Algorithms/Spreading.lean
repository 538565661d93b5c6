import BulkSync.Proofs.Algorithms.Labels
import BulkSync.Proofs.Engine.Start
import BulkSync.Proofs.Engine.Success
import BulkSync.Vertex.Calls

/-! # Nodes that spread least numbers

In the computation of connected components every node keeps the least number that it has heard of and
passes it on when it is a new one (`components`). A visit to a node that finds its label of the round before
and messages that make it the next one leaves it with that label (`Finds.visit`). Conversely the letters of
one superstep, reduced to their least one or not, are such messages for the next one
(`foldl_min_told`). -/

namespace BulkSync

open RowGraph (neighborsOf)

/-! ## The computation -/

/-- Every node keeps the least number that it has heard of, its own to begin with, and tells its neighbors
whenever that is a new one. -/
def components (reducer : Option (Reducer Int64)) : Computation Int64 where
  schema := Schema.ofList [⟨"component", .long, .exposed⟩]
  reducer := reducer
  setup view := SetupContext.setLong "component" (Int64.ofNat view.node)
  compute view messages := do
    let current ← VertexContext.getLong "component"
    let best := messages.foldl min current
    if view.superstep = 0 ∨ best < current then
      VertexContext.setLong "component" best
      VertexContext.sendToNeighbors best
    VertexContext.halt

/-- The schema of one label for each node. -/
def labelSchema : Schema := ⟨[⟨"component", .long, .exposed⟩]⟩

theorem place_label : labelSchema.place .long "component" = .ok 0 := rfl

theorem schema_components (reducer : Option (Reducer Int64)) :
    (components reducer).schema = .ok labelSchema := rfl

variable {γ : Type} [GraphView γ] {g : γ} {reducer : Option (Reducer Int64)} {superstep node : Nat}
  {messages : Messages Int64} {d : Deed Int64} {current : Int64}

theorem letters_sends {M : Type} (superstep node : Nat) (message : M) (targets : List Nat) :
    (targets.map (Event.send superstep node · message)).filterMap Event.letter? =
      targets.map (·, message) := by
  rw [List.filterMap_map]
  exact congrFun List.filterMap_eq_map' targets

/-- Telling the neighbors is one event for each of them. -/
theorem Deed.sendToNeighbors_eq {M : Type} [Element M] {schema : Schema} {targets : Array Nat} {d : Deed M}
    (known : Handler.targets g node = .ok targets) (message : M) :
    (Deed.vertex g schema superstep node (.sendToNeighbors message)).outcome d =
      (.ok (), { d with events := d.events ++ targets.toList.map (.send superstep node · message) }) := by
  have sends : ∀ (targets : List Nat) (d : Deed M), (targets.forM fun target =>
      Attempt.change (Deed.note (.send superstep node target message))).outcome d =
        (.ok (), { d with events := d.events ++ targets.map (.send superstep node · message) }) := by
    intro targets
    induction targets with
    | nil => simp
    | cons target targets inductionHypothesis =>
      intro d
      refine (inductionHypothesis (d.note (.send superstep node target message))).trans ?_
      simp [Deed.note]
  have asked : (Attempt.lift (Handler.targets g node)).outcome d = (.ok targets, d) :=
    Prod.ext known rfl
  exact (Attempt.outcome_bind_of_ok asked).trans (sends targets.toList d)

theorem compute_components (reducer : Option (Reducer Int64)) (view : VertexView) (messages : List Int64) :
    (components reducer).compute view messages = .ask (.getLong "component") fun current =>
      if view.superstep = 0 ∨ messages.foldl min current < current then
        .ask (.setLong "component" (messages.foldl min current)) fun _ =>
          .ask (.sendToNeighbors (messages.foldl min current)) fun _ => .ask .halt .done
      else .ask .halt .done := by
  refine congrArg (Program.ask _) (funext fun current => ?_)
  split
  · next news => exact if_pos news
  · next old => exact if_neg old

/-- A node that computes takes the least of its number and its messages, and votes to halt. -/
theorem compute_least (reducer : Option (Reducer Int64)) (superstep : Nat) (d : Deed Int64)
    {targets : Array Nat} (known : Handler.targets g node = .ok targets)
    (row : d.row 0 = Element.toWord current) {label : Int64}
    (best : messages.toList.foldl min current = label) :
    ∃ next, (Deed.compute g (components reducer) labelSchema superstep node messages).outcome d =
      (.ok (), next) ∧ next.row 0 = Element.toWord label ∧ next.halted = true ∧ next.raised = d.raised ∧
      next.letters = d.letters ++
        if superstep = 0 ∨ label < current then targets.toList.map (·, label) else [] := by
  have reads : (Deed.vertex g labelSchema superstep node (.getLong "component")).outcome
      (d.note (.compute superstep node messages)) =
        (.ok current, d.note (.compute superstep node messages)) := by
    rw [← Element.ofWord_toWord current, ← row]
    rfl
  rw [Deed.compute, Attempt.outcome_bind_of_ok (Attempt.outcome_change _ _), compute_components,
    Program.run_ask, Attempt.outcome_bind_of_ok reads, best]
  split
  · have sets : (Deed.vertex g labelSchema superstep node (.setLong "component" label)).outcome
        (d.note (.compute superstep node messages)) =
          (.ok (), (d.note (.compute superstep node messages)).putWord 0 (Element.toWord label)) := rfl
    rw [Program.run_ask, Attempt.outcome_bind_of_ok sets, Program.run_ask,
      Attempt.outcome_bind_of_ok (Deed.sendToNeighbors_eq known label)]
    refine ⟨_, rfl, rfl, rfl, rfl, ?_⟩
    change (d.events ++ [Event.compute superstep node messages] ++
      targets.toList.map (Event.send superstep node · label) ++ [Event.halt superstep node]).filterMap _ = _
    rw [List.filterMap_append, List.filterMap_append, List.filterMap_append, letters_sends]
    -- the other two events are no letters
    change d.letters ++ [] ++ _ ++ [] = _
    rw [List.append_nil, List.append_nil]
  · next old =>
    have same : label = current := by
      have least := (le_foldl_min.mp (Std.le_refl (messages.toList.foldl min current))).1
      rw [best] at least
      exact Std.le_antisymm least (Std.not_lt.mp fun below => old (.inr below))
    refine ⟨_, rfl, ?_, rfl, rfl, ?_⟩
    · rw [same, ← row]
      rfl
    · simp [Deed.letters, Deed.note, Event.letter?]

/-! ## Labels as numbers -/

variable {edges : List (Nat × Nat)} {nodes round : Nat}

/-- The label of a node as it is kept and sent. -/
def labelOf (edges : List (Nat × Nat)) (round node : Nat) : Int64 := Int64.ofNat (labelAfter edges round node)

theorem foldl_min_ofNat {start : Nat} (small : start < 2 ^ 63) (values : List Nat)
    (allSmall : ∀ value ∈ values, value < 2 ^ 63) :
    (values.map Int64.ofNat).foldl min (Int64.ofNat start) = Int64.ofNat (values.foldl min start) := by
  induction values generalizing start with
  | nil => rfl
  | cons value values inductionHypothesis =>
    have smallToo := allSmall value (List.mem_cons_self ..)
    have both : min (Int64.ofNat start) (Int64.ofNat value) = Int64.ofNat (min start value) := by
      simp only [Std.min_eq_if, Int64.ofNat_le_iff_le small smallToo]
      split <;> rfl
    rw [List.map_cons, List.foldl_cons, both, List.foldl_cons]
    exact inductionHypothesis (by omega) fun other member => allSmall other (List.mem_cons_of_mem _ member)

theorem labelOf_inj {other : Nat} (small : node < 2 ^ 63)
    (same : labelOf edges round node = labelOf edges other node) :
    labelAfter edges round node = labelAfter edges other node := by
  have labelSmall : ∀ round, labelAfter edges round node < 2 ^ 63 := fun round =>
    Nat.lt_of_le_of_lt (labelAfter_le edges round node) small
  apply Int.ofNat_inj.mp
  rw [← Int64.toInt_ofNat_of_lt (labelSmall round), ← Int64.toInt_ofNat_of_lt (labelSmall other)]
  exact congrArg Int64.toInt same

/-- What bounds a label of the next round are the bounds of the labels that it is the least of. -/
theorem le_labelOf_succ (edgesInside : ∀ edge ∈ edges, edge.1 < nodes ∧ edge.2 < nodes)
    (small : nodes < 2 ^ 63) (inside : node < nodes) {bound : Int64} :
    bound ≤ labelOf edges (round + 1) node ↔ bound ≤ labelOf edges round node ∧
      ∀ other ∈ neighborsOf edges node, bound ≤ labelOf edges round other := by
  have labelSmall : ∀ other < nodes, labelAfter edges round other < 2 ^ 63 := fun other otherInside =>
    Nat.lt_of_le_of_lt (labelAfter_le edges round other) (Nat.lt_trans otherInside small)
  have folded := foldl_min_ofNat (labelSmall node inside)
    ((neighborsOf edges node).map (labelAfter edges round)) fun value member => by
      obtain ⟨other, neighbor, rfl⟩ := List.mem_map.mp member
      exact labelSmall other (((Connected.of_neighbor neighbor).inside edgesInside).mp inside)
  rw [labelOf, labelAfter, ← folded, le_foldl_min]
  simp [labelOf]

/-! ## The visit -/

/-- The letters with which a node tells its neighbors its label, if that is a new one. -/
def tellings (edges : List (Nat × Nat)) (superstep node : Nat) : List (Nat × Int64) :=
  if superstep = 0 ∨ labelOf edges superstep node < labelOf edges (superstep - 1) node then
    (neighborsOf edges node).map (·, labelOf edges superstep node)
  else []

/-- What a node finds in front of a superstep: nothing before the first one, and later its label of the
round before and messages that make it the one of this round. -/
inductive Finds (edges : List (Nat × Nat)) (node : Nat) : Nat → Deed Int64 → List Int64 → Prop
  | first {share : Deed Int64} (awake : share.halted = false) : Finds edges node 0 share []
  | later {share : Deed Int64} {messages : List Int64} (round : Nat) (asleep : share.halted = true)
      (label : share.row 0 = Element.toWord (labelOf edges round node))
      (news : messages.foldl min (labelOf edges round node) = labelOf edges (round + 1) node) :
      Finds edges node (round + 1) share messages

/-- What a node does in a superstep: it has the label of that round, votes to halt and tells its
neighbors. -/
structure Tells (edges : List (Nat × Nat)) (superstep node : Nat) (deed : Deed Int64) : Prop where
  label : deed.row 0 = Element.toWord (labelOf edges superstep node)
  halted : deed.halted = true
  calm : deed.raised = false
  letters : deed.letters = tellings edges superstep node

theorem Finds.visit {share : Deed Int64} (finds : Finds edges node superstep share messages.toList)
    (calm : share.raised = false) (blank : share.events = []) (reducer : Option (Reducer Int64))
    (known : Handler.targets g node = .ok (neighborsOf edges node).toArray) :
    ∃ deed, (Deed.visit g (components reducer) labelSchema superstep node messages).outcome share =
      (.ok (), deed) ∧ Tells edges superstep node deed := by
  generalize received : messages.toList = list at finds
  cases finds with
  | first awake =>
    have setUp : (Deed.setUp g (components reducer) labelSchema 0 node).outcome share =
        (.ok (), (share.note (.setup node)).putWord 0 (Element.toWord (Int64.ofNat node))) := rfl
    have woken : (Deed.wake messages).outcome
        ((share.note (.setup node)).putWord 0 (Element.toWord (Int64.ofNat node))) =
          (.ok true, (share.note (.setup node)).putWord 0 (Element.toWord (Int64.ofNat node))) := by
      simp [Deed.wake, Deed.putWord, Deed.note, awake]
    have best : messages.toList.foldl min (labelOf edges 0 node) = labelOf edges 0 node := by
      rw [received]
      rfl
    obtain ⟨next, ran, label, halted, same, letters⟩ :=
      compute_least reducer 0 ((share.note (.setup node)).putWord 0 (Element.toWord (Int64.ofNat node)))
        known rfl best
    refine ⟨next, ?_, label, halted, same.trans calm, letters.trans ?_⟩
    · rw [Deed.visit, Attempt.outcome_bind_of_ok setUp, Attempt.outcome_bind_of_ok woken]
      exact ran
    · simp [Deed.letters, Deed.putWord, Deed.note, Event.letter?, blank, tellings]
  | later round asleep label news =>
    have setUp : (Deed.setUp g (components reducer) labelSchema (round + 1) node).outcome share =
        (.ok (), share) := rfl
    rw [Deed.visit, Attempt.outcome_bind_of_ok setUp, Attempt.outcome_bind]
    cases none : messages.isEmpty with
    | true =>
      -- without messages the node sleeps on, and its label is still the right one
      have woken : (Deed.wake messages).outcome share = (.ok false, share) := by
        simp [Deed.wake, asleep, none]
      have same : labelOf edges round node = labelOf edges (round + 1) node := by
        rw [Messages.isEmpty_eq, received, List.isEmpty_iff] at none
        rwa [none] at news
      rw [woken]
      refine ⟨share, rfl, same ▸ label, asleep, calm, ?_⟩
      simp [Deed.letters, blank, tellings, same]
    | false =>
      have woken : (Deed.wake messages).outcome share = (.ok true, { share with halted := false }) := by
        simp [Deed.wake, asleep, none]
      obtain ⟨next, ran, row, halted, same, letters⟩ :=
        compute_least reducer (round + 1) { share with halted := false } known label (received ▸ news)
      rw [woken]
      refine ⟨next, ran, row, halted, same.trans calm, letters.trans ?_⟩
      simp [Deed.letters, blank, tellings]

/-! ## The news -/

theorem eq_of_le_iff_le {a b : Int64} (same : ∀ bound, bound ≤ a ↔ bound ≤ b) : a = b :=
  Std.le_antisymm ((same a).mp (Std.le_refl a)) ((same b).mpr (Std.le_refl b))

theorem foldFrom_min (start : Int64) (messages : List Int64) :
    Reducer.min.foldFrom start messages = .ok (messages.foldl min start) := by
  induction messages generalizing start with
  | nil => rfl
  | cons message messages inductionHypothesis =>
    have reduced : Reducer.min.reduce start message = .ok (min start message) := by
      have choice : (if message < start then message else start) = min start message := by
        rw [Std.min_eq_if]
        split
        · next below => rw [if_neg (Std.not_le.mpr below)]
        · next above => rw [if_pos (Std.not_lt.mp above)]
      rw [← choice]
      simp [Reducer.min, Element.less]
    rw [Reducer.foldFrom, List.foldlM_cons, reduced]
    exact inductionHypothesis (min start message)

/-- It makes no difference to the least number whether messages are reduced to their least one on their
way. -/
theorem Delivered.foldl_min {sent received : List Int64} (least : reducer = none ∨ reducer = some .min)
    (delivered : Delivered reducer sent received) (current : Int64) :
    received.foldl min current = sent.foldl min current := by
  rcases least with rfl | rfl
  · obtain rfl : received = sent := delivered
    rfl
  · cases sent with
    | nil =>
      obtain rfl : received = [] := delivered
      rfl
    | cons message messages =>
      obtain ⟨value, folded, rfl⟩ := delivered
      rw [foldFrom_min] at folded
      obtain rfl := Except.ok.inj folded
      -- both have the same lower bounds, as the identity is above all of them
      refine eq_of_le_iff_le fun bound => ?_
      have greatest : bound ≤ (Reducer.min : Reducer Int64).identity :=
        Int64.le_iff_toInt_le.mpr (Int64.toInt_le bound)
      rw [le_foldl_min, le_foldl_min]
      simp only [List.mem_singleton, forall_eq, le_foldl_min, greatest, true_and]

theorem mem_tellings {superstep node target : Nat} {message : Int64} :
    (target, message) ∈ tellings edges superstep node ↔
      (superstep = 0 ∨ labelOf edges superstep node < labelOf edges (superstep - 1) node) ∧
        target ∈ neighborsOf edges node ∧ labelOf edges superstep node = message := by
  rw [tellings]
  split
  · next news => simp [news]
  · next old => simp [old]

/-- The messages to a node of one superstep make its label the one of the next. -/
theorem foldl_min_told (edgesInside : ∀ edge ∈ edges, edge.1 < nodes ∧ edge.2 < nodes)
    (small : nodes < 2 ^ 63) (inside : node < nodes) (told : List Int64)
    (all : ∀ message, message ∈ told ↔ ∃ other < nodes, (node, message) ∈ tellings edges superstep other) :
    told.foldl min (labelOf edges superstep node) = labelOf edges (superstep + 1) node := by
  refine eq_of_le_iff_le fun bound => ?_
  rw [le_foldl_min, le_labelOf_succ edgesInside small inside]
  refine and_congr_right fun own => ⟨fun bounds other neighbor => ?_, fun bounds message member => ?_⟩
  · have otherInside := ((Connected.of_neighbor neighbor).inside edgesInside).mp inside
    -- a neighbor without news has the label that it had told before
    by_cases news : superstep = 0 ∨ labelOf edges superstep other < labelOf edges (superstep - 1) other
    · exact bounds _ ((all _).mpr ⟨other, otherInside,
        mem_tellings.mpr ⟨news, RowGraph.mem_neighborsOf_comm.mp neighbor, rfl⟩⟩)
    · obtain ⟨positive, same⟩ := not_or.mp news
      obtain ⟨round, rfl⟩ := Nat.exists_eq_succ_of_ne_zero positive
      have before := ((le_labelOf_succ edgesInside small inside).mp
        (Std.le_refl (labelOf edges (round + 1) node))).2 other neighbor
      exact Std.le_trans own (Std.le_trans before (Std.not_lt.mp same))
  · obtain ⟨other, _, tells⟩ := (all message).mp member
    obtain ⟨_, neighbor, rfl⟩ := mem_tellings.mp tells
    exact bounds other (RowGraph.mem_neighborsOf_comm.mp neighbor)

end BulkSync
