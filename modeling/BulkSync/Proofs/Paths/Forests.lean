import BulkSync.Proofs.Binary.Order
import BulkSync.Proofs.Paths.Histories
import BulkSync.Proofs.Paths.Lineages

/-! # Forests of shortest paths

If every offer goes on from a node that is reached, at a distance that is not shorter, then the predecessors of
a table form a forest with its roots in the sources, and distances never decrease from a node to those below it
(`Forest`). An offer that would close a cycle comes from below the node it is made to, where all distances are at
least that of the node, and so it is refused (`Forest.offered`). -/

namespace BulkSync.PathTable

open Binary (atMost_trans)

theorem Entry.predecessor?_eq_some {nodes : Nat} (bounded : nodes < Word.limit) {entry : Entry}
    (inside : entry.predecessor.toNat < nodes) : entry.predecessor? = some entry.predecessor.toNat := by
  refine if_neg fun none => ?_
  rw [none] at inside
  have top : noPredecessor.toNat = Word.limit - 1 := rfl
  omega

/-- The predecessors of a forest, and the distances in it. -/
structure Forest (nodes : Nat) (source : Nat → Prop) (entries : Nat → Entry) : Prop where
  nonnegative : ∀ node < nodes, (default : Binary64).atMost (entries node).distance = true
  above : ∀ node < nodes, ∀ above, (entries node).predecessor? = some above →
    above < nodes ∧ (entries above).distance.atMost (entries node).distance = true
  root : ∀ node < nodes, (entries node).predecessor? = none →
    (entries node).distance = .infinite false ∨ source node
  line : ∀ node < nodes, ∃ path, Lineage (fun node => (entries node).predecessor?) node path

namespace Forest

variable {nodes node : Nat} {source : Nat → Prop} {entries : Nat → Entry}

theorem unreached (nodes : Nat) (source : Nat → Prop) : Forest nodes source fun _ => .unreached where
  nonnegative _ _ := by decide +kernel
  above _ _ _ known := by
    simp only [Entry.predecessor?, Entry.unreached, if_true] at known
    cases known
  root _ _ _ := .inl rfl
  line node _ := ⟨[node], .root (if_pos rfl)⟩

theorem number (forest : Forest nodes source entries) (inside : node < nodes) :
    (entries node).distance.isNaN = false :=
  (Binary.atMost_iff.mp (forest.nonnegative node inside)).2.1

/-- No node above a node is farther than it. -/
theorem nearer (forest : Forest nodes source entries) {path : List Nat} (inside : node < nodes)
    (line : Lineage (fun node => (entries node).predecessor?) node path) : ∀ member ∈ path,
      member < nodes ∧ (entries member).distance.atMost (entries node).distance = true := by
  induction line with
  | root none =>
    intro member within
    obtain rfl := List.mem_singleton.mp within
    exact ⟨inside, Binary.atMost_refl (forest.number inside)⟩
  | child known line inductionHypothesis =>
    obtain ⟨insideToo, below⟩ := forest.above _ inside _ known
    intro member within
    rcases List.mem_append.mp within with higher | last
    · obtain ⟨memberInside, above⟩ := inductionHypothesis insideToo member higher
      exact ⟨memberInside, atMost_trans above below⟩
    · obtain rfl := List.mem_singleton.mp last
      exact ⟨inside, Binary.atMost_refl (forest.number inside)⟩

theorem ascends (forest : Forest nodes source entries) {path : List Nat} (inside : node < nodes)
    (line : Lineage (fun node => (entries node).predecessor?) node path) :
    path.Pairwise fun first second => (entries first).distance.atMost (entries second).distance = true := by
  induction line with
  | root none => exact List.pairwise_singleton _ _
  | child known line inductionHypothesis =>
    obtain ⟨insideToo, below⟩ := forest.above _ inside _ known
    refine List.pairwise_append.mpr ⟨inductionHypothesis insideToo, List.pairwise_singleton _ _, ?_⟩
    intro member within last same
    obtain rfl := List.mem_singleton.mp same
    exact atMost_trans (forest.nearer insideToo line member within).2 below

/-! ## What calls keep -/

/-- Another entry for one node, at a distance that what is below the node can bear. -/
theorem replaced (forest : Forest nodes source entries) {moved : Nat} {entry : Entry}
    (nonnegative : (default : Binary64).atMost entry.distance = true)
    (below : ∀ node < nodes, (entries moved).distance.atMost (entries node).distance = true →
      entry.distance.atMost (entries node).distance = true)
    (above : ∀ above, entry.predecessor? = some above →
      above < nodes ∧ above ≠ moved ∧ (entries above).distance.atMost entry.distance = true)
    (root : entry.predecessor? = none → entry.distance = .infinite false ∨ source moved)
    (line : ∃ path, Lineage (fun node => (Function.update entries moved entry node).predecessor?) moved path) :
    Forest nodes source (Function.update entries moved entry) where
  nonnegative node inside := by
    by_cases here : node = moved
    · rwa [here, Function.update_self]
    · rw [Function.update_of_ne here]
      exact forest.nonnegative node inside
  above node inside parent known := by
    by_cases here : node = moved
    · rw [here, Function.update_self] at known ⊢
      obtain ⟨parentInside, distinct, reached⟩ := above parent known
      rw [Function.update_of_ne distinct]
      exact ⟨parentInside, reached⟩
    · rw [Function.update_of_ne here] at known ⊢
      obtain ⟨parentInside, reached⟩ := forest.above node inside parent known
      by_cases top : parent = moved
      · rw [top, Function.update_self]
        exact ⟨top ▸ parentInside, below node inside (top ▸ reached)⟩
      · rw [Function.update_of_ne top]
        exact ⟨parentInside, reached⟩
  root node inside none := by
    by_cases here : node = moved
    · rw [here, Function.update_self] at none ⊢
      exact root none
    · rw [Function.update_of_ne here] at none ⊢
      exact forest.root node inside none
  line node inside := by
    obtain ⟨path, lineage⟩ := forest.line node inside
    refine lineage.reroute line fun member distinct => ?_
    rw [Function.update_of_ne distinct]

/-- A source is a root, and nothing below it is nearer than zero. -/
theorem marked (forest : Forest nodes source entries) {root : Nat} (isSource : source root) :
    Forest nodes source (Function.update entries root .source) := by
  have parentless : Entry.source.predecessor? = none := rfl
  refine forest.replaced (by decide +kernel) (fun node inside _ => forest.nonnegative node inside) ?_
    (fun _ => .inr isSource) ⟨[root], .root ?_⟩
  · intro above known
    rw [parentless] at known
    cases known
  · rw [Function.update_self, parentless]

/-- An offer that is an improvement for a node does not come from below it, where nothing is nearer than it. -/
theorem offered (forest : Forest nodes source entries) (bounded : nodes < Word.limit) (inside : node < nodes)
    {entry : Entry} (insideToo : entry.predecessor.toNat < nodes)
    (reached : (entries entry.predecessor.toNat).distance.atMost entry.distance = true)
    (improves : (entries node).distance.atMost entry.distance = false) :
    Forest nodes source (Function.update entries node entry) := by
  have known := Entry.predecessor?_eq_some bounded insideToo
  have apart : ∀ other, (entries other).distance.atMost entry.distance = true → other ≠ node := by
    rintro other below rfl
    exact Bool.false_ne_true (improves.symm.trans below)
  have number : entry.distance.isNaN = false := (Binary.atMost_iff.mp reached).2.1
  have nearer := Binary.atMost_of_not (forest.number inside) number improves
  refine forest.replaced (atMost_trans (forest.nonnegative _ insideToo) reached)
    (fun other _ below => atMost_trans nearer below) ?_ ?_ ?_
  · intro above aboveKnown
    obtain rfl := Option.some.inj (known.symm.trans aboveKnown)
    exact ⟨insideToo, apart _ reached, reached⟩
  · intro none
    rw [known] at none
    cases none
  · obtain ⟨path, line⟩ := forest.line _ insideToo
    have still : Lineage (fun other => (Function.update entries node entry other).predecessor?)
        entry.predecessor.toNat path := by
      refine line.congr fun member within => ?_
      have below := atMost_trans (forest.nearer insideToo line member within).2 reached
      rw [Function.update_of_ne (apart member below)]
    exact ⟨_, .child (by rw [Function.update_self, known]) still⟩

end Forest

/-! ## Calls that go on from what is reached -/

/-- Whether a call marks a source, or offers a path that goes on from a node and is no shorter than the way to it. -/
def Call.Extends (nodes : Nat) (t : PathTable) : Call → Prop
  | setSource _ => True
  | tryRelax _ entry | relax _ entry => entry.predecessor.toNat < nodes ∧ 0 ≤ entry.hops ∧
      ∃ distance, t.distance entry.predecessor.toNat = .ok distance ∧ distance.atMost entry.distance = true
  | compareExchange _ _ _ => False

/-- Calls each of which does so by the time that it is made. -/
def AllExtend (nodes : Nat) : PathTable → List Call → Prop
  | _, [] => True
  | t, call :: rest => call.Extends nodes t ∧ AllExtend nodes (call.onTable.run t).2 rest

/-- The same of the entries that a table holds. -/
def Call.extendsEntries (nodes : Nat) (entries : Nat → Entry) : Call → Bool
  | setSource _ => true
  | tryRelax _ entry | relax _ entry => decide (entry.predecessor.toNat < nodes) && decide (0 ≤ entry.hops) &&
      (entries entry.predecessor.toNat).distance.atMost entry.distance
  | compareExchange _ _ _ => false

def allExtendEntries (nodes : Nat) : (Nat → Entry) → List Call → Bool
  | _, [] => true
  | entries, call :: rest =>
      call.extendsEntries nodes entries && allExtendEntries nodes ((call.onEntries nodes).run entries).2 rest

namespace Holds

variable {nodes : Nat} {entries : Nat → Entry} {t : PathTable}

theorem extends_iff (holds : Holds nodes entries t) (call : Call) :
    call.Extends nodes t ↔ call.extendsEntries nodes entries = true := by
  cases call with
  | setSource node => simp [Call.Extends, Call.extendsEntries]
  | tryRelax node entry | relax node entry =>
    simp only [Call.Extends, Call.extendsEntries, Bool.and_eq_true, decide_eq_true_eq, and_assoc]
    refine and_congr_right fun inside => and_congr_right fun _ => ?_
    simp [holds.distance_eq inside]
  | compareExchange node expected entry => simp [Call.Extends, Call.extendsEntries]

theorem allExtend_iff (holds : Holds nodes entries t) (calls : List Call) :
    AllExtend nodes t calls ↔ allExtendEntries nodes entries calls = true := by
  induction calls generalizing entries t with
  | nil => simp [AllExtend, allExtendEntries]
  | cons call calls inductionHypothesis =>
    have after := (holds.answered call).1.2
    rw [AllExtend, allExtendEntries, Bool.and_eq_true, holds.extends_iff, inductionHypothesis after]

end Holds

namespace Forest

variable {nodes : Nat} {source : Nat → Prop} {entries : Nat → Entry}

theorem call (forest : Forest nodes source entries) (bounded : nodes < Word.limit) {call : Call}
    (goesOn : call.extendsEntries nodes entries = true) (sources : ∀ node, call = .setSource node → source node) :
    Forest nodes source ((call.onEntries nodes).run entries).2 := by
  rw [call.run_onEntries]
  cases refused : call.refusal nodes with
  | some fault => exact forest
  | none =>
    obtain ⟨_, inside⟩ := Call.refusal_eq_none refused
    dsimp only
    split
    · next replaced =>
      cases call with
      | setSource node => exact forest.marked (sources node rfl)
      | tryRelax node entry | relax node entry =>
        simp only [Call.extendsEntries, Bool.and_eq_true, decide_eq_true_eq] at goesOn
        exact forest.offered bounded inside goesOn.1.1 goesOn.2 (by simpa [Call.replaces, Call.entry] using replaced)
      | compareExchange node expected entry => cases goesOn
    · exact forest

theorem calls (forest : Forest nodes source entries) (bounded : nodes < Word.limit) (calls : List Call)
    (goOn : allExtendEntries nodes entries calls = true) (sources : ∀ node, .setSource node ∈ calls → source node) :
    Forest nodes source ((calls.mapM (Call.onEntries nodes)).run entries).2 := by
  induction calls generalizing entries with
  | nil => exact forest
  | cons call calls inductionHypothesis =>
    obtain ⟨first, rest⟩ := Bool.and_eq_true_iff.mp goOn
    rw [Lockstep.run_mapM_cons]
    exact inductionHypothesis (forest.call bounded first fun node same => sources node (by simp [same])) rest
      fun node member => sources node (List.mem_cons_of_mem _ member)

end Forest

/-! ## Paths -/

/-- What is known of the path to a node. -/
structure Ascent (t : PathTable) (source : Nat → Prop) (target : Nat) (path : List Nat) : Prop where
  starts : ∃ first, path.head? = some first ∧ source first
  ends : path.getLast? = some target
  distinct : path.Nodup
  known : path.IsChain fun above below => t.predecessor below = .ok (some above)
  ascends : path.Pairwise fun first second => ∃ here there, t.distance first = .ok here ∧
    t.distance second = .ok there ∧ here.atMost there = true

theorem Forest.ascent {nodes target : Nat} {source : Nat → Prop} {entries : Nat → Entry} {t : PathTable}
    (forest : Forest nodes source entries) (holds : Holds nodes entries t) (inside : target < nodes)
    (reached : (entries target).distance ≠ .infinite false) :
    ∃ path, t.pathTo target = .ok (some path) ∧ Ascent t source target path := by
  obtain ⟨path, line⟩ := forest.line target inside
  have nearer := forest.nearer inside line
  have finite : (entries target).distance.isInfinite = false := Bool.eq_false_iff.mpr fun infinite =>
    reached (Binary.eq_infinite_of_nonnegative (by decide) (forest.nonnegative target inside) infinite)
  refine ⟨path, line.pathTo_eq holds (fun member within => (nearer member within).1) finite, ?_, line.getLast?_eq,
    line.nodup, ?_, ?_⟩
  · obtain ⟨root, head, parentless⟩ := line.exists_head
    obtain ⟨rootInside, below⟩ := nearer root (List.mem_of_mem_head? head)
    -- a root that is no source is infinitely far, and so would be all below it
    refine ⟨root, head, (forest.root root rootInside parentless).resolve_left fun far => reached ?_⟩
    exact Binary.eq_infinite_of_atMost (by decide) (far ▸ below)
  · refine line.isChain.imp_of_mem_imp fun above below _ member known => ?_
    rw [holds.predecessor_eq (nearer below member).1, known]
  · refine (forest.ascends inside line).imp_of_mem fun {first second} member memberToo below => ?_
    exact ⟨_, _, holds.distance_eq (nearer first member).1, holds.distance_eq (nearer second memberToo).1, below⟩

/-- Offers that go on from what is reached never close a cycle: at any time there is a path to every node that is
not infinitely far. -/
theorem acyclicity {nodes : Nat} (bounded : nodes < Word.limit) (calls : List Call)
    (goOn : AllExtend nodes (new nodes) calls) : ∃ answers t,
      (calls.mapM Call.onTable).run (new nodes) = (answers, t) ∧
      ∀ target < nodes, ∃ distance, t.distance target = .ok distance ∧ (distance ≠ .infinite false →
        ∃ path, t.pathTo target = .ok (some path) ∧ Ascent t (fun node => .setSource node ∈ calls) target path) := by
  have start := holds_new nodes
  have holds := (Lockstep.alike_mapM (fun call _ _ holds => (Holds.answered holds call).1) calls start).2
  have forest := (Forest.unreached nodes fun node => .setSource node ∈ calls).calls bounded calls
    ((start.allExtend_iff calls).mp goOn) fun _ member => member
  exact ⟨_, _, rfl, fun target inside => ⟨_, holds.distance_eq inside, forest.ascent holds inside⟩⟩

/-- A source, two nodes in line behind it, one of them at no distance from the other; then the first of the two is
offered a shorter way, and two offers would close a cycle. -/
def tour : List Call :=
  [.setSource 0, .tryRelax 1 ⟨.ofInt 5, 0, 1⟩, .relax 2 ⟨.ofInt 5, 1, 2⟩, .relax 1 ⟨.ofInt 2, 0, 1⟩,
    .tryRelax 0 ⟨.ofInt 5, 2, 3⟩, .relax 1 ⟨.ofInt 2, 1, 2⟩, .setSource 3]

theorem acyclicity_tour : 4 < Word.limit ∧ AllExtend 4 (new 4) tour ∧ ∃ answers t,
    (tour.mapM Call.onTable).run (new 4) = (answers, t) ∧
    ∀ target < 4, ∃ distance, t.distance target = .ok distance ∧ (distance ≠ .infinite false →
      ∃ path, t.pathTo target = .ok (some path) ∧ Ascent t (fun node => .setSource node ∈ tour) target path) := by
  have bounded : 4 < Word.limit := by decide
  have goOn : AllExtend 4 (new 4) tour := ((holds_new 4).allExtend_iff tour).mpr (by decide +kernel)
  exact ⟨bounded, goOn, acyclicity bounded tour goOn⟩

end BulkSync.PathTable
