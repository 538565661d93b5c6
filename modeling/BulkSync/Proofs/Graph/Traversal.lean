import BulkSync.Proofs.Graph.Listing
import BulkSync.Proofs.Paged.Coverage

/-! # Walks over the edges of a node

A visitor that is led along a list sees its longest beginning at whose items it goes on, the last one perhaps
excepted, and nothing after that (`foldWhile_longest`). All walks of a graph over the edges of a node are such walks
over the same row, whether they take it slice by slice or place by place, and through however many layers the graph
is viewed (`traversals_agree`). -/

namespace BulkSync

/-! ## Walks over lists -/

section Walks

variable {σ α : Type}

/-- The state of a visitor that has been shown some items, whatever it answered. -/
def stateAfter (visit : Visitor σ α) (s : σ) (seen : List α) : σ := seen.foldl (fun s item => (visit s item).1) s

/-- The visitor goes on at every item but perhaps the last. -/
def Willing (visit : Visitor σ α) (s : σ) (seen : List α) : Prop :=
  ∀ front item rest, seen = front ++ item :: rest → rest ≠ [] → (visit (stateAfter visit s front) item).2 = true

/-- The longest beginning of a list at whose items, the last one perhaps excepted, the visitor goes on. -/
structure Longest (visit : Visitor σ α) (s : σ) (items seen : List α) : Prop where
  beginning : seen <+: items
  willing : Willing visit s seen
  longest : ∀ other, other <+: items → Willing visit s other → other.length ≤ seen.length

/-- The visitor that also writes down what it is shown. -/
def recording (visit : Visitor σ α) : Visitor (σ × List α) α := fun state item =>
  (((visit state.1 item).1, state.2 ++ [item]), (visit state.1 item).2)

variable {visit : Visitor σ α} {s : σ} {item : α} {items seen : List α}

theorem willing_nil : Willing visit s [] := by
  intro front item rest split
  simp at split

theorem willing_single : Willing visit s [item] := by
  intro front other rest split more
  cases front with
  | nil => simp_all
  | cons _ _ => simp at split

theorem willing_cons : Willing visit s (item :: seen) ↔
    (seen ≠ [] → (visit s item).2 = true) ∧ Willing visit (visit s item).1 seen := by
  constructor
  · intro willing
    refine ⟨fun more => willing [] item seen rfl more, fun front other rest split more => ?_⟩
    exact willing (item :: front) other rest (by rw [split, List.cons_append]) more
  · rintro ⟨first, later⟩ front other rest split more
    cases front with
    | nil =>
      obtain ⟨rfl, rfl⟩ := List.cons.inj split
      exact first more
    | cons head front =>
      obtain ⟨rfl, behind⟩ := List.cons.inj split
      exact later front other rest behind more

theorem longest_nil : Longest visit s [] [] :=
  ⟨List.prefix_rfl, willing_nil, fun _ beginning _ => beginning.length_le⟩

/-- A visitor that declines is shown nothing more. -/
theorem longest_declined (declines : (visit s item).2 = false) : Longest visit s (item :: items) [item] := by
  refine ⟨⟨items, rfl⟩, willing_single, fun other beginning willing => ?_⟩
  cases other with
  | nil => simp
  | cons head other =>
    obtain ⟨rfl, -⟩ := List.cons_prefix_cons.mp beginning
    by_contra long
    have more : other ≠ [] := by
      rintro rfl
      simp at long
    rw [(willing_cons.mp willing).1 more] at declines
    cases declines

theorem longest_cons (goesOn : (visit s item).2 = true) (longest : Longest visit (visit s item).1 items seen) :
    Longest visit s (item :: items) (item :: seen) := by
  refine ⟨List.cons_prefix_cons.mpr ⟨rfl, longest.beginning⟩, willing_cons.mpr ⟨fun _ => goesOn, longest.willing⟩,
    fun other beginning willing => ?_⟩
  cases other with
  | nil => simp
  | cons head other =>
    obtain ⟨rfl, within⟩ := List.cons_prefix_cons.mp beginning
    exact Nat.succ_le_succ (longest.longest other within (willing_cons.mp willing).2)

theorem foldWhile_longest (visit : Visitor σ α) (items : List α) (s : σ) :
    ∃ seen, Longest visit s items seen ∧ (foldWhile visit items s).1 = stateAfter visit s seen ∧
      ∀ front, (foldWhile (recording visit) items (s, front)).1 = (stateAfter visit s seen, front ++ seen) := by
  induction items generalizing s with
  | nil => exact ⟨[], longest_nil, rfl, fun front => by simp [foldWhile, stateAfter]⟩
  | cons item items inductionHypothesis =>
    cases answer : visit s item with
    | mk t goesOn =>
      cases goesOn with
      | false =>
        refine ⟨[item], longest_declined (by rw [answer]), ?_, fun front => ?_⟩
        · simp [foldWhile, stateAfter, answer]
        · simp [foldWhile, recording, stateAfter, answer]
      | true =>
        obtain ⟨seen, longest, reached, recorded⟩ := inductionHypothesis t
        refine ⟨item :: seen, longest_cons (by rw [answer]) (by rwa [answer]), ?_, fun front => ?_⟩
        · simp [foldWhile, stateAfter, answer, reached]
        · have onward := recorded (front ++ [item])
          rw [List.append_assoc, List.singleton_append] at onward
          simpa [foldWhile, recording, stateAfter, answer] using onward

theorem Longest.unique {other : List α} (longest : Longest visit s items seen) (longestToo : Longest visit s items other) :
    seen = other := by
  have upTo := longestToo.longest seen longest.beginning longest.willing
  have atLeast := longest.longest other longestToo.beginning longestToo.willing
  exact (List.prefix_of_prefix_length_le longest.beginning longestToo.beginning upTo).eq_of_length_le atLeast

/-- A visitor that never declines is shown everything. -/
theorem Longest.eq_of_going (longest : Longest visit s items seen) (going : ∀ s item, (visit s item).2 = true) :
    seen = items := by
  have all := longest.longest items List.prefix_rfl fun front item rest _ _ => going _ item
  exact longest.beginning.eq_of_length_le all

/-- A walk leads every visitor along the list. -/
def Walks (items : List α) (walk : (σ : Type) → Visitor σ α → σ → Except Fault σ) : Prop :=
  ∀ (σ : Type) (visit : Visitor σ α) (s : σ), ∃ seen, Longest visit s items seen ∧
    walk σ visit s = .ok (stateAfter visit s seen) ∧
    walk (σ × List α) (recording visit) (s, []) = .ok (stateAfter visit s seen, seen)

theorem walks_of_foldWhile {items : List α} {walk : (σ : Type) → Visitor σ α → σ → Except Fault σ}
    (leads : ∀ σ visit s, walk σ visit s = .ok (foldWhile visit items s).1) : Walks items walk := by
  intro σ visit s
  obtain ⟨seen, longest, reached, recorded⟩ := foldWhile_longest visit items s
  refine ⟨seen, longest, ?_, ?_⟩
  · rw [leads, reached]
  · rw [leads, recorded, List.nil_append]

end Walks

/-! ## Layers of views -/

/-- What can be asked about a node is answered from one row of targets and weights. -/
structure Follows {γ : Type} [GraphView γ] (view : γ) (node : Nat) (items : List (Nat × Binary64)) : Prop where
  degree : GraphView.degree view node = .ok items.length
  foldNeighbors : ∀ (σ : Type) (visit : Visitor σ Nat) (s : σ),
    GraphView.foldNeighbors view node visit s = .ok (foldWhile visit (items.map Prod.fst) s).1
  foldWeighted : ∀ (σ : Type) (visit : Visitor σ (Nat × Binary64)) (s : σ),
    GraphView.foldWeighted view node visit s = .ok (foldWhile visit items s).1

/-- The graph itself, or a view of it through any number of layers; whether one of them hides the weights. -/
inductive Layered (g : RowGraph) : (γ : Type) → [GraphView γ] → γ → Bool → Prop where
  | bare : Layered g RowGraph g false
  | forwarded {γ : Type} [GraphView γ] {view : γ} {hidden : Bool} (inner : Layered g γ view hidden) :
      Layered g (Forwarded γ) ⟨view⟩ hidden
  | unweighted {γ : Type} [GraphView γ] {view : γ} {hidden : Bool} (inner : Layered g γ view hidden) :
      Layered g (Unweighted γ) ⟨view⟩ true

/-- The row without its weights. -/
def plainRow (items : List (Nat × Binary64)) : List (Nat × Binary64) := items.map fun item => (item.1, Element.one)

theorem Follows.unweighted {γ : Type} [GraphView γ] {view : γ} {node : Nat} {items : List (Nat × Binary64)}
    (follows : Follows view node items) : Follows (⟨view⟩ : Unweighted γ) node (plainRow items) := by
  have targets : (plainRow items).map Prod.fst = items.map Prod.fst := by
    simp [plainRow, Function.comp_def]
  constructor
  · rw [plainRow, List.length_map]
    exact follows.degree
  · intro σ visit s
    rw [targets]
    exact follows.foldNeighbors σ visit s
  · intro σ visit s
    have walked := follows.foldNeighbors σ (fun s target => visit s (target, Element.one)) s
    rw [foldWhile_map, ← foldWhile_map visit fun item : Nat × Binary64 => (item.1, Element.one)] at walked
    exact walked

theorem Layered.follows {g : RowGraph} {node : Nat} {items : List (Nat × Binary64)} (follows : Follows g node items)
    {γ : Type} [GraphView γ] {view : γ} {hidden : Bool} (layered : Layered g γ view hidden) :
    Follows view node (if hidden then plainRow items else items) := by
  induction layered with
  | bare => exact follows
  | forwarded inner inductionHypothesis =>
    exact ⟨inductionHypothesis.degree, inductionHypothesis.foldNeighbors, inductionHypothesis.foldWeighted⟩
  | @unweighted γ _ view hidden inner inductionHypothesis =>
    have plain : plainRow (if hidden then plainRow items else items) = plainRow items := by
      cases hidden with
      | false => rfl
      | true => simp [plainRow, Function.comp_def]
    rw [if_pos rfl, ← plain]
    exact inductionHypothesis.unweighted

namespace RowGraph

open Rows (itemsOf before)

/-! ## Rows of a graph -/

/-- The rows were sorted from edges with weights, whatever the graph was made of. -/
structure Groups (nodes : Nat) (edges : List (Nat × Nat × Binary64)) (g : RowGraph) : Prop where
  targets : g.targets = Rows.group nodes (edges.map ends)
  weighs : g.Weighs nodes edges
  inside : ∀ edge ∈ edges, edge.1 < nodes

theorem groups_unit {nodes : Nat} {edges : List (Nat × Nat)} (inside : ∀ edge ∈ edges, edge.1 < nodes) :
    Groups nodes (edges.map fun edge => (edge.1, edge.2, Element.one)) ⟨Rows.group nodes edges, none⟩ := by
  have same : (edges.map fun edge => (edge.1, edge.2, (Element.one : Binary64))).map ends = edges := by
    rw [List.map_map]
    exact List.map_id edges
  constructor
  · rw [same]
  · exact List.forall_mem_map.mpr fun _ _ => rfl
  · exact List.forall_mem_map.mpr inside

theorem groups_of_ofEdges {g : RowGraph} {nodes : Nat} {edges : List (Nat × Nat)} (made : ofEdges nodes edges = .ok g) :
    ∃ nodes edges, Groups nodes edges g := by
  obtain ⟨_, _, rest⟩ := bind_eq_ok_iff.mp made
  obtain ⟨⟨⟩, checked, last⟩ := bind_eq_ok_iff.mp rest
  cases last
  exact ⟨_, _, groups_unit (inside_of_checkEdges checked)⟩

theorem groups_of_ofWeighted {g : RowGraph} {nodes : Nat} {edges : List (Nat × Nat × Binary64)}
    (made : ofWeighted nodes edges = .ok g) : Groups nodes edges g := by
  obtain ⟨_, _, rest⟩ := bind_eq_ok_iff.mp made
  obtain ⟨⟨⟩, checked, last⟩ := bind_eq_ok_iff.mp rest
  cases last
  exact ⟨rfl, rfl, List.forall_mem_map.mp (inside_of_checkEdges checked)⟩

theorem Made.groups {g : RowGraph} (made : g.Made) : ∃ nodes edges, Groups nodes edges g := by
  cases made with
  | adjacency rows made =>
    obtain rfl := ofAdjacency_ok made
    rw [ofLists_eq]
    exact ⟨_, _, groups_unit (edgesOf_inside rows)⟩
  | edges nodes edges made => exact groups_of_ofEdges made
  | weighted nodes edges made => exact ⟨nodes, edges, groups_of_ofWeighted made⟩
  | undirected nodes edges made => exact groups_of_ofEdges made

/-- The row of a node: its targets lie one behind the other in the array of targets, and their weights, if there are
any, at the same places of the array of weights. -/
structure HoldsRow (g : RowGraph) (node : Nat) (items : List (Nat × Binary64)) : Prop where
  neighbors : g.neighbors node = .ok (items.map Prod.fst)
  unit : g.weights = none → ∀ item ∈ items, item.2 = Element.one
  stored : ∃ start, g.targets.offsets.read node = .ok start ∧
    g.targets.offsets.read (node + 1) = .ok (start + items.length) ∧
    (List.range' start items.length).mapM g.targets.values.read = .ok (items.map Prod.fst) ∧
    ∀ weights, g.weights = some weights →
      (List.range' start items.length).mapM weights.read = .ok (items.map Prod.snd)

theorem mapM_read_group {α : Type} [Inhabited α] {nodes node : Nat} {edges : List (Nat × Nat × Binary64)}
    (f : Nat × Binary64 → α) (inside : ∀ edge ∈ edges, edge.1 < nodes) (bound : node < nodes) :
    (List.range' (before edges node) (edgesFrom edges node).length).mapM
        (Rows.group nodes (edges.map fun edge => (edge.1, f edge.2))).values.read =
      .ok ((edgesFrom edges node).map f) := by
  obtain ⟨_, placed⟩ := Rows.placed_group (Rows.inside_map f inside)
  have sound := placed.places.sound (Rows.released_group nodes _)
  have fits := Rows.before_le_length edges (node + 1)
  rw [Rows.before_succ] at fits
  rw [sound.mapM_read, Rows.peek_group_map f inside bound]
  rw [placed.places.size_eq, List.length_map]
  exact fits

theorem Groups.holdsRow {nodes node : Nat} {edges : List (Nat × Nat × Binary64)} {g : RowGraph}
    (groups : Groups nodes edges g) (bound : node < nodes) : g.HoldsRow node (edgesFrom edges node) := by
  obtain ⟨targets, weighs, inside⟩ := groups
  have sources := ends_inside inside
  obtain ⟨offsets, unreleased⟩ := Rows.offsets_group sources
  have starts := (Rows.startsOf_spec nodes (edges.map ends) sources).2
  have start : ∀ row ≤ nodes, g.targets.offsets.read row = .ok (before edges row) := by
    intro row within
    have sound := offsets.sound unreleased
    rw [targets, sound.read_ok]
    · exact congrArg Except.ok ((starts row within).trans (Rows.before_map Prod.fst edges row))
    · rw [offsets.size_eq]
      exact Nat.lt_succ_of_le within
  rw [Weighs] at weighs
  constructor
  · rw [neighbors_eq targets sources bound, itemsOf_ends]
  · intro unweighted item member
    rw [unweighted] at weighs
    exact weighs (node, item) (Rows.mem_itemsOf.mp member)
  · refine ⟨before edges node, start node (Nat.le_of_lt bound), ?_, ?_, fun weights held => ?_⟩
    · rw [start (node + 1) bound, Rows.before_succ]
    · rw [targets]
      exact mapM_read_group Prod.fst inside bound
    · rw [held] at weighs
      rw [weighs]
      exact mapM_read_group Prod.snd inside bound

/-! ## All walks -/

/-- The walks of a view along the row of a node, and what they have in common: they show the same targets, as many as
the degree says to a visitor that never declines. -/
structure Traversed {γ : Type} [GraphView γ] (view : γ) (node : Nat) (items : List (Nat × Binary64)) : Prop where
  neighbors : Walks (items.map Prod.fst) fun _ visit s => GraphView.foldNeighbors view node visit s
  weighted : Walks items fun _ visit s => GraphView.foldWeighted view node visit s
  targets : ∀ (σ : Type) (visit : Visitor σ Nat) (s : σ),
    GraphView.foldWeighted view node (fun s item => visit s item.1) s = GraphView.foldNeighbors view node visit s
  degree : ∀ (σ : Type) (visit : Visitor σ Nat) (s : σ), (∀ s target, (visit s target).2 = true) →
    ∃ t seen, GraphView.foldNeighbors view node (recording visit) (s, []) = .ok (t, seen) ∧
      GraphView.degree view node = .ok seen.length

theorem traversed_of_follows {γ : Type} [GraphView γ] {view : γ} {node : Nat} {items : List (Nat × Binary64)}
    (follows : Follows view node items) : Traversed view node items := by
  have neighbors := walks_of_foldWhile follows.foldNeighbors
  refine ⟨neighbors, walks_of_foldWhile follows.foldWeighted, fun σ visit s => ?_, fun σ visit s going => ?_⟩
  · rw [follows.foldWeighted, follows.foldNeighbors, foldWhile_map]
  · obtain ⟨seen, longest, _, recorded⟩ := neighbors σ visit s
    refine ⟨_, seen, recorded, ?_⟩
    rw [follows.degree, longest.eq_of_going going, List.length_map]

/-- However a graph was made and through however many layers it is viewed, all walks over the edges of a node are
along the row that is stored for it; hidden weights are one. -/
theorem traversals_agree {g : RowGraph} (made : g.Made) {node : Nat} (inside : node < GraphView.nodeCount g) :
    ∃ items, g.HoldsRow node items ∧
      ∀ (γ : Type) [GraphView γ] (view : γ) (hidden : Bool), Layered g γ view hidden →
        Traversed view node (if hidden then plainRow items else items) := by
  obtain ⟨nodes, edges, groups⟩ := made.groups
  have shows := shows_of_grouped groups.targets groups.weighs groups.inside
  have bound : node < nodes := by rwa [shows.nodeCount] at inside
  have follows : Follows g node (edgesFrom edges node) :=
    ⟨shows.degree node bound, fun _ visit s => shows.foldNeighbors node bound visit s,
      fun _ visit s => shows.foldWeighted node bound visit s⟩
  exact ⟨edgesFrom edges node, groups.holdsRow bound, fun γ _ view hidden layered =>
    traversed_of_follows (layered.follows follows)⟩

/-- Of three edges with weights that leave a node, a visitor that stops at the second target is shown two. -/
theorem traversals_agree_bundle : ∃ g, ofWeighted 3 bundle = .ok g ∧ g.Made ∧ 2 < GraphView.nodeCount g ∧
    ∃ items, g.HoldsRow 2 items ∧ items.map Prod.fst = [0, 2, 0] ∧ Traversed g 2 items ∧
      Traversed (⟨⟨g⟩⟩ : Forwarded (Unweighted RowGraph)) 2 (plainRow items) ∧
      ∃ t, GraphView.foldNeighbors (⟨⟨g⟩⟩ : Forwarded (Unweighted RowGraph)) 2
        (recording fun s target => (s + target, target != 2)) (0, []) = .ok (t, [0, 2]) := by
  obtain ⟨g, made⟩ : ∃ g, ofWeighted 3 bundle = .ok g := ⟨_, rfl⟩
  have groups := groups_of_ofWeighted made
  have counted : 2 < GraphView.nodeCount g := by
    rw [(shows_of_grouped groups.targets groups.weighs groups.inside).nodeCount]
    exact Nat.lt_succ_self 2
  obtain ⟨items, holds, traversed⟩ := traversals_agree (.weighted 3 bundle made) counted
  have neighbors : g.neighbors 2 = .ok [0, 2, 0] := (groups.holdsRow (Nat.lt_succ_self 2)).neighbors
  have targets : items.map Prod.fst = [0, 2, 0] := Except.ok.inj (holds.neighbors.symm.trans neighbors)
  have layered := traversed _ (⟨⟨g⟩⟩ : Forwarded (Unweighted RowGraph)) true (.forwarded (.unweighted .bare))
  refine ⟨g, made, .weighted 3 bundle made, counted, items, holds, targets, traversed _ g false .bare, layered, ?_⟩
  obtain ⟨seen, longest, -, recorded⟩ := layered.neighbors Nat (fun s target => (s + target, target != 2)) 0
  have shown : (plainRow items).map Prod.fst = [0, 2, 0] := by
    rw [← targets]
    simp [plainRow, Function.comp_def]
  rw [if_pos rfl, shown] at longest
  rw [longest.unique (longest_cons rfl (longest_declined rfl))] at recorded
  exact ⟨_, recorded⟩

end RowGraph
end BulkSync
