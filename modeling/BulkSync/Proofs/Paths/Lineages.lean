import BulkSync.Proofs.Paths.Entries
import Mathlib.Data.List.Chain
import Mathlib.Data.List.Nodup
import Mathlib.Data.List.Perm.Subperm

/-! # Lineages

A node has at most one lineage: the nodes that come when its predecessors are followed, up to one that has none,
written from there on (`Lineage.unique`). No node is in it twice (`Lineage.nodup`), so that following as many
predecessors as there are nodes is enough to find it (`Lineage.pathTo_eq`). -/

namespace BulkSync.PathTable

/-- The nodes from one without a parent down to a node. -/
inductive Lineage (parent : Nat → Option Nat) : Nat → List Nat → Prop
  | root {node : Nat} (none : parent node = none) : Lineage parent node [node]
  | child {node above : Nat} {path : List Nat} (known : parent node = some above) (line : Lineage parent above path) :
      Lineage parent node (path ++ [node])

namespace Lineage

variable {parent parentToo : Nat → Option Nat} {node other : Nat} {path pathToo : List Nat}

theorem unique (line : Lineage parent node path) (lineToo : Lineage parent node pathToo) : path = pathToo := by
  induction line generalizing pathToo with
  | root none =>
    cases lineToo with
    | root => rfl
    | child known => simp [none] at known
  | child known _ inductionHypothesis =>
    cases lineToo with
    | root none => simp [none] at known
    | child knownToo lineToo =>
      obtain rfl : _ = _ := Option.some.inj (known.symm.trans knownToo)
      rw [inductionHypothesis lineToo]

theorem getLast?_eq (line : Lineage parent node path) : path.getLast? = some node := by
  cases line <;> simp

theorem exists_head (line : Lineage parent node path) : ∃ root, path.head? = some root ∧ parent root = none := by
  induction line with
  | root none => exact ⟨_, rfl, none⟩
  | child known line inductionHypothesis =>
    obtain ⟨root, head, none⟩ := inductionHypothesis
    exact ⟨root, by simp [head], none⟩

theorem isChain (line : Lineage parent node path) : path.IsChain fun above below => parent below = some above := by
  induction line with
  | root none => exact .singleton _
  | child known line inductionHypothesis =>
    refine inductionHypothesis.append (.singleton _) fun above last below first => ?_
    simp_all [line.getLast?_eq]

/-- Each node of a lineage has its own lineage as a beginning of it. -/
theorem above (line : Lineage parent node path) (member : other ∈ path) :
    ∃ front, Lineage parent other front ∧ front <+: path := by
  induction line with
  | root none =>
    obtain rfl := List.mem_singleton.mp member
    exact ⟨_, .root none, List.prefix_rfl⟩
  | child known line inductionHypothesis =>
    rcases List.mem_append.mp member with earlier | last
    · obtain ⟨front, lineToo, begins⟩ := inductionHypothesis earlier
      exact ⟨front, lineToo, begins.trans (List.prefix_append ..)⟩
    · obtain rfl := List.mem_singleton.mp last
      exact ⟨_, .child known line, List.prefix_rfl⟩

theorem nodup (line : Lineage parent node path) : path.Nodup := by
  induction line with
  | root none => exact List.nodup_singleton _
  | @child node above path known line inductionHypothesis =>
    refine inductionHypothesis.append (List.nodup_singleton _) (List.disjoint_singleton.mpr fun member => ?_)
    -- a node above itself would have a lineage that is shorter than its lineage
    obtain ⟨front, lineToo, begins⟩ := line.above member
    have length := begins.length_le
    rw [lineToo.unique (.child known line), List.length_append, List.length_singleton] at length
    omega

theorem length_le {nodes : Nat} (line : Lineage parent node path) (inside : ∀ member ∈ path, member < nodes) :
    path.length ≤ nodes := by
  have counted := (line.nodup.subperm fun member within => List.mem_range.mpr (inside member within)).length_le
  simpa using counted

/-! ## Other parents -/

theorem congr (line : Lineage parent node path) (same : ∀ member ∈ path, parentToo member = parent member) :
    Lineage parentToo node path := by
  induction line with
  | root none => exact .root ((same _ (by simp)).trans none)
  | child known line inductionHypothesis =>
    exact .child ((same _ (by simp)).trans known)
      (inductionHypothesis fun member within => same member (by simp [within]))

/-- A node that is given another parent takes those below it with it. -/
theorem reroute (line : Lineage parent node path) {moved : Nat} (fresh : ∃ path, Lineage parentToo moved path)
    (same : ∀ member, member ≠ moved → parentToo member = parent member) : ∃ path, Lineage parentToo node path := by
  induction line with
  | @root node none =>
    by_cases here : node = moved
    · exact here ▸ fresh
    · exact ⟨_, .root ((same _ here).trans none)⟩
  | @child node above path known line inductionHypothesis =>
    by_cases here : node = moved
    · exact here ▸ fresh
    · obtain ⟨path, line⟩ := inductionHypothesis
      exact ⟨_, .child ((same _ here).trans known) line⟩

/-! ## Following predecessors -/

variable {t : PathTable}

theorem follow_eq (line : Lineage parent node path)
    (reads : ∀ member ∈ path, t.predecessor member = .ok (parent member)) {budget : Nat}
    (enough : path.length ≤ budget + 1) (found : List Nat) :
    t.follow budget node (node :: found) = .ok (some (path ++ found)) := by
  induction line generalizing budget found with
  | root none =>
    rw [follow, reads _ (by simp), none]
    rfl
  | @child node above path known line inductionHypothesis =>
    rw [List.length_append, List.length_singleton] at enough
    have nonempty : path ≠ [] := by
      intro empty
      simpa [empty] using line.getLast?_eq
    have positive := List.length_pos_iff.mpr nonempty
    obtain ⟨budget, rfl⟩ : ∃ rest, budget = rest + 1 := ⟨budget - 1, by omega⟩
    rw [follow, reads _ (by simp), known]
    have further := inductionHypothesis (fun member within => reads member (by simp [within]))
      (show path.length ≤ budget + 1 by omega) (node :: found)
    simpa [bind, Except.bind] using further

/-- The path to a node at a finite distance is its lineage. -/
theorem pathTo_eq {nodes : Nat} {entries : Nat → Entry} (holds : Holds nodes entries t)
    (line : Lineage (fun node => (entries node).predecessor?) node path) (inside : ∀ member ∈ path, member < nodes)
    (finite : (entries node).distance.isInfinite = false) : t.pathTo node = .ok (some path) := by
  have member : node ∈ path := List.mem_of_getLast? line.getLast?_eq
  have enough : path.length ≤ nodes - 1 + 1 := by
    have length := line.length_le inside
    omega
  have found := line.follow_eq (fun member within => holds.predecessor_eq (inside member within)) enough []
  rw [pathTo, holds.distance_eq (inside node member), holds.nodeCount_eq]
  simpa [bind, Except.bind, finite] using found

end Lineage
end BulkSync.PathTable
