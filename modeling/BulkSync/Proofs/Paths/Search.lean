import BulkSync.Proofs.Paths.Histories
import BulkSync.Proofs.Paths.Lineages
import Mathlib.Data.List.Induction
import Mathlib.Logic.Relation

/-! # The search for a path

To find the path to a node its predecessors are followed, each put in front of the path, until there is none or the
path has more nodes than the table (`Searches`). If predecessors are nodes, the search comes to an end
(`Holds.searches`), and it comes to nothing just if the node has no lineage: a lineage has no more nodes than the
table (`Lineage.pathTo_eq`), and a path that is found is one (`Holds.lineage_of_search`). So the path is exactly the
way that leads from a node without a predecessor to the target (`exactness`). -/

namespace BulkSync.PathTable

/-- Whether each predecessor is a node. -/
def Closed (nodes : Nat) (t : PathTable) : Prop :=
  ∀ node < nodes, ∀ above, t.predecessor node = .ok (some above) → above < nodes

/-- A way along predecessors, from a node that has none down to a target. -/
structure Route (t : PathTable) (target : Nat) (path : List Nat) : Prop where
  starts : ∃ root, path.head? = some root ∧ t.predecessor root = .ok none
  ends : path.getLast? = some target
  known : path.IsChain fun above below => t.predecessor below = .ok (some above)

/-- A search that has come to a node, with the path from there on, and what it comes to. -/
inductive Searches (t : PathTable) : Nat → List Nat → Option (List Nat) → Prop
  | found {node : Nat} {path : List Nat} (top : t.predecessor node = .ok none) : Searches t node path (some path)
  | higher {node above : Nat} {path : List Nat} {result : Option (List Nat)}
      (known : t.predecessor node = .ok (some above)) (room : (above :: path).length ≤ t.nodeCount)
      (searches : Searches t above (above :: path) result) : Searches t node path result
  | tooLong {node above : Nat} {path : List Nat} (known : t.predecessor node = .ok (some above))
      (full : t.nodeCount < (above :: path).length) : Searches t node path none

theorem follow_top {t : PathTable} {node : Nat} (top : t.predecessor node = .ok none) (budget : Nat)
    (path : List Nat) : t.follow budget node path = .ok (some path) := by
  cases budget <;> rw [follow, top] <;> rfl

/-! ## Lineages and routes -/

namespace Lineage

variable {parent : Nat → Option Nat} {node : Nat} {path : List Nat}

theorem inside {nodes : Nat} (closed : ∀ node < nodes, ∀ above, parent node = some above → above < nodes)
    (line : Lineage parent node path) (within : node < nodes) : ∀ member ∈ path, member < nodes := by
  induction line with
  | root none => simpa using within
  | child known line inductionHypothesis =>
    have higher := inductionHypothesis (closed _ within _ known)
    intro member inPath
    rcases List.mem_append.mp inPath with earlier | last
    · exact higher member earlier
    · obtain rfl := List.mem_singleton.mp last
      exact within

theorem of_chain {root : Nat} (head : path.head? = some root) (top : parent root = none)
    (last : path.getLast? = some node) (chain : path.IsChain fun above below => parent below = some above) :
    Lineage parent node path := by
  induction path using List.reverseRecOn generalizing node with
  | nil => cases last
  | append_singleton path below inductionHypothesis =>
    obtain rfl : below = node := by simpa using last
    cases before : path.getLast? with
    | none =>
      obtain rfl := List.getLast?_eq_none_iff.mp before
      obtain rfl : below = root := by simpa using head
      exact .root top
    | some above =>
      obtain ⟨higher, -, joint⟩ := List.isChain_append.mp chain
      have nonempty : path ≠ [] := by
        rintro rfl
        cases before
      rw [List.head?_append_of_ne_nil _ nonempty] at head
      exact .child (joint above before below rfl) (inductionHypothesis head before higher)

end Lineage

namespace Holds

variable {nodes node : Nat} {entries : Nat → Entry} {t : PathTable}

theorem predecessor_iff (holds : Holds nodes entries t) {above : Option Nat} :
    t.predecessor node = .ok above ↔ node < nodes ∧ (entries node).predecessor? = above := by
  constructor
  · intro read
    have inside : node < nodes := by
      apply Nat.lt_of_not_le
      intro behind
      rw [PathTable.predecessor, holds.predecessors.read_behind behind] at read
      cases read
    rw [holds.predecessor_eq inside] at read
    exact ⟨inside, Except.ok.inj read⟩
  · rintro ⟨inside, rfl⟩
    exact holds.predecessor_eq inside

theorem lineage_of_route (holds : Holds nodes entries t) {path : List Nat} (route : t.Route node path) :
    Lineage (fun node => (entries node).predecessor?) node path := by
  obtain ⟨root, head, top⟩ := route.starts
  apply Lineage.of_chain head (holds.predecessor_iff.mp top).2 route.ends
  exact route.known.imp fun above below known => (holds.predecessor_iff.mp known).2

section Closed

variable (holds : Holds nodes entries t) (closed : Closed nodes t)

include holds closed

theorem parents_inside : ∀ node < nodes, ∀ above, (entries node).predecessor? = some above → above < nodes :=
  fun node inside above known => closed node inside above (holds.predecessor_iff.mpr ⟨inside, known⟩)

theorem route_of_lineage {path : List Nat} (line : Lineage (fun node => (entries node).predecessor?) node path)
    (inside : node < nodes) : t.Route node path where
  starts := by
    obtain ⟨root, head, top⟩ := line.exists_head
    have within := line.inside (holds.parents_inside closed) inside root (List.mem_of_mem_head? head)
    exact ⟨root, head, holds.predecessor_iff.mpr ⟨within, top⟩⟩
  ends := line.getLast?_eq
  known := by
    refine line.isChain.imp_of_mem_imp fun above below _ member known => ?_
    exact holds.predecessor_iff.mpr ⟨line.inside (holds.parents_inside closed) inside below member, known⟩

/-- A node has a lineage just if its predecessors lead to a node that has none. -/
theorem lineage_iff (inside : node < nodes) :
    (∃ path, Lineage (fun node => (entries node).predecessor?) node path) ↔
      ∃ root, Relation.ReflTransGen (fun below above => t.predecessor below = .ok (some above)) node root ∧
        t.predecessor root = .ok none := by
  constructor
  · rintro ⟨path, line⟩
    induction line with
    | root top => exact ⟨_, .refl, holds.predecessor_iff.mpr ⟨inside, top⟩⟩
    | child known line inductionHypothesis =>
      have read := holds.predecessor_iff.mpr ⟨inside, known⟩
      obtain ⟨root, climbs, top⟩ := inductionHypothesis (closed _ inside _ read)
      exact ⟨root, .head read climbs, top⟩
  · rintro ⟨root, climbs, top⟩
    induction climbs using Relation.ReflTransGen.head_induction_on with
    | refl => exact ⟨_, .root (holds.predecessor_iff.mp top).2⟩
    | head known _ inductionHypothesis =>
      obtain ⟨path, line⟩ := inductionHypothesis (closed _ inside _ known)
      exact ⟨_, .child (holds.predecessor_iff.mp known).2 line⟩

/-! ## What a search comes to -/

theorem next_cases (inside : node < nodes) :
    t.predecessor node = .ok none ∨ ∃ above, t.predecessor node = .ok (some above) ∧ above < nodes := by
  have read := holds.predecessor_eq inside
  cases known : (entries node).predecessor? with
  | none => exact .inl (known ▸ read)
  | some above =>
    rw [known] at read
    exact .inr ⟨above, read, closed node inside above read⟩

/-- There is less room with each predecessor that is followed. -/
theorem searches (inside : node < nodes) {budget : Nat} {path : List Nat} (room : path.length + budget = nodes) :
    ∃ result, t.follow budget node path = .ok result ∧ Searches t node path result := by
  induction budget generalizing node path with
  | zero =>
    rcases holds.next_cases closed inside with top | ⟨above, known, -⟩
    · exact ⟨_, follow_top top .., .found top⟩
    · refine ⟨none, by rw [follow, known]; rfl, .tooLong known ?_⟩
      rw [holds.nodeCount_eq, List.length_cons]
      omega
  | succ budget inductionHypothesis =>
    rcases holds.next_cases closed inside with top | ⟨above, known, insideToo⟩
    · exact ⟨_, follow_top top .., .found top⟩
    · have less : (above :: path).length + budget = nodes := by
        rw [List.length_cons]
        omega
      obtain ⟨result, followed, searches⟩ := inductionHypothesis insideToo less
      refine ⟨result, by rw [follow, known]; exact followed, .higher known ?_ searches⟩
      rw [holds.nodeCount_eq]
      omega

end Closed

/-- A path that is found is a lineage, in front of what was found before. -/
theorem lineage_of_search (holds : Holds nodes entries t) {path : List Nat} {result : Option (List Nat)}
    (searches : Searches t node path result) : ∀ found, path = node :: found → ∀ whole, result = some whole →
      ∃ front, Lineage (fun node => (entries node).predecessor?) node front ∧ whole = front ++ found := by
  induction searches with
  | found top =>
    rintro found rfl whole ⟨⟩
    exact ⟨_, .root (holds.predecessor_iff.mp top).2, rfl⟩
  | higher known room searches inductionHypothesis =>
    rintro found rfl whole ended
    obtain ⟨front, line, rfl⟩ := inductionHypothesis _ rfl whole ended
    exact ⟨_, .child (holds.predecessor_iff.mp known).2 line, by simp⟩
  | tooLong known full =>
    rintro found - whole ⟨⟩

end Holds

/-- Whatever calls have been made, cycles of predecessors included: if each predecessor is a node, then the search for
the path to a node comes to an end. It comes to nothing just if the node is infinitely far or its predecessors never
lead to a node that has none. Otherwise it finds the one route to the node, and comes to no node twice. -/
theorem exactness {nodes : Nat} {t : PathTable} (reachable : Reachable nodes t) (closed : Closed nodes t)
    {target : Nat} (inside : target < nodes) : ∃ distance result, t.distance target = .ok distance ∧
      t.pathTo target = .ok result ∧ (distance.isInfinite = false → Searches t target [target] result) ∧
      (result = none ↔ distance.isInfinite = true ∨ ¬ ∃ root,
        Relation.ReflTransGen (fun below above => t.predecessor below = .ok (some above)) target root ∧
          t.predecessor root = .ok none) ∧
      ∀ path, result = some path → t.Route target path ∧ path.Nodup ∧
        ∀ pathToo, t.Route target pathToo → pathToo = path := by
  obtain ⟨entries, holds⟩ := reachable.holds
  have distance := holds.distance_eq inside
  have room : [target].length + (nodes - 1) = nodes := by
    rw [List.length_singleton]
    omega
  obtain ⟨found, followed, searches⟩ := holds.searches closed inside room
  cases infinite : (entries target).distance.isInfinite with
  | true =>
    refine ⟨_, none, distance, ?_, by simp [infinite], by simp [infinite], by simp⟩
    rw [pathTo, distance]
    simp [bind, Except.bind, infinite, pure, Except.pure]
  | false =>
    have ran : t.pathTo target = .ok found := by
      rw [pathTo, distance, holds.nodeCount_eq]
      simpa [bind, Except.bind, infinite] using followed
    have sound : ∀ path, found = some path → Lineage (fun node => (entries node).predecessor?) target path := by
      intro path ended
      obtain ⟨front, line, rfl⟩ := holds.lineage_of_search searches [] rfl path ended
      simpa using line
    have complete : ∀ path, Lineage (fun node => (entries node).predecessor?) target path → found = some path := by
      intro path line
      have whole := line.pathTo_eq holds (line.inside (holds.parents_inside closed) inside) infinite
      exact Except.ok.inj (ran.symm.trans whole)
    refine ⟨_, found, distance, ran, fun _ => searches, ?_, ?_⟩
    · rw [← holds.lineage_iff closed inside]
      constructor
      · rintro rfl
        refine .inr ?_
        rintro ⟨path, line⟩
        cases complete path line
      · rintro (far | rootless)
        · exact absurd (infinite.symm.trans far) Bool.false_ne_true
        · exact Option.eq_none_iff_forall_ne_some.mpr fun path ended => rootless ⟨path, sound path ended⟩
    · intro path ended
      have line := sound path ended
      exact ⟨holds.route_of_lineage closed line inside, line.nodup, fun pathToo route =>
        (holds.lineage_of_route route).unique line⟩

/-- Four nodes, each of which has the one in front of it for a predecessor. -/
def queue : List Call :=
  [.setSource 0, .relax 1 ⟨.ofInt 1, 0, 1⟩, .relax 2 ⟨.ofInt 2, 1, 2⟩, .tryRelax 3 ⟨.ofInt 3, 2, 3⟩]

/-- The first of them is exchanged for one behind the last. -/
def ring : List Call := queue ++ [.compareExchange 0 (.ofInt 0) ⟨.ofInt 0, 3, 4⟩]

theorem closed_of_all {nodes : Nat} {t : PathTable}
    (all : ∀ node < nodes, (t.predecessor node).toOption.join.all (decide <| · < nodes) = true) : Closed nodes t := by
  intro node inside above known
  simpa [known, Except.toOption] using all node inside

/-- The way to the last node takes in all nodes. In the ring there is no way to it, however near it is. -/
theorem exactness_ring :
    (∃ t, Reachable 4 t ∧ Closed 4 t ∧ 3 < 4 ∧ t.pathTo 3 = .ok (some [0, 1, 2, 3]) ∧
      t.Route 3 [0, 1, 2, 3] ∧ Searches t 3 [3] (some [0, 1, 2, 3])) ∧
    ∃ t, Reachable 4 t ∧ Closed 4 t ∧ 3 < 4 ∧ t.pathTo 3 = .ok none ∧
      t.distance 3 = .ok (.ofInt 3) ∧ Searches t 3 [3] none := by
  have inside : 3 < 4 := by decide
  have near : (Binary.ofInt 3 : Binary64).isInfinite = false := by decide +kernel
  constructor
  · obtain ⟨t, made⟩ : ∃ t, t = ((queue.mapM Call.onTable).run (new 4)).2 := ⟨_, rfl⟩
    have reachable : Reachable 4 t := ⟨queue, made.symm⟩
    obtain ⟨parents, read, way⟩ : (∀ node < 4, (t.predecessor node).toOption.join.all (decide <| · < 4) = true) ∧
        t.distance 3 = .ok (.ofInt 3) ∧ t.pathTo 3 = .ok (some [0, 1, 2, 3]) := by
      rw [made]
      decide +kernel
    have closed := closed_of_all parents
    obtain ⟨distance, result, readToo, ran, searches, -, routes⟩ := exactness reachable closed inside
    cases read.symm.trans readToo
    cases way.symm.trans ran
    exact ⟨t, reachable, closed, inside, way, (routes _ rfl).1, searches near⟩
  · obtain ⟨t, made⟩ : ∃ t, t = ((ring.mapM Call.onTable).run (new 4)).2 := ⟨_, rfl⟩
    have reachable : Reachable 4 t := ⟨ring, made.symm⟩
    obtain ⟨parents, read, lost⟩ : (∀ node < 4, (t.predecessor node).toOption.join.all (decide <| · < 4) = true) ∧
        t.distance 3 = .ok (.ofInt 3) ∧ t.pathTo 3 = .ok none := by
      rw [made]
      decide +kernel
    have closed := closed_of_all parents
    obtain ⟨distance, result, readToo, ran, searches, -, -⟩ := exactness reachable closed inside
    cases read.symm.trans readToo
    cases lost.symm.trans ran
    exact ⟨t, reachable, closed, inside, lost, read, searches near⟩

end BulkSync.PathTable
