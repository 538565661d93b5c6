import BulkSync.Element

/-!
# Graph views

What a computation sees of a graph: its nodes `0 .. n - 1`, the number of its edges, and for each
node its degree and a walk over the targets of its edges. A walk is a fold whose step also says
whether to go on; it is not asked again once it has declined.

A view that knows no weights walks the weighted edges with weight one.
-/

namespace BulkSync

/-- A step of a walk: the next state, and whether to go on. -/
abbrev Visitor (σ α : Type) : Type := σ → α → σ × Bool

/-- Walks over a list; also says whether the walk went to its end. -/
def foldWhile {σ α : Type} (visit : Visitor σ α) : List α → σ → σ × Bool
  | [], s => (s, true)
  | x :: xs, s =>
      match visit s x with
      | (s, true) => foldWhile visit xs s
      | (s, false) => (s, false)

/-- The graphs that a computation can run on. -/
class GraphView (γ : Type) where
  nodeCount : γ → Nat
  edgeCount : γ → Nat
  /-- The number of edges that leave a node. -/
  degree : γ → Nat → Except Fault Nat
  /-- Walks over the targets of the edges that leave a node. -/
  foldNeighbors {σ : Type} : γ → Nat → Visitor σ Nat → σ → Except Fault σ
  /-- Walks over the targets together with the weights of the edges. -/
  foldWeighted {σ : Type} : γ → Nat → Visitor σ (Nat × Binary64) → σ → Except Fault σ :=
    fun g node visit s => foldNeighbors g node (fun s target => visit s (target, Element.one)) s

/-- A view that hands every question on to another one. -/
structure Forwarded (γ : Type) where
  inner : γ

instance {γ : Type} [GraphView γ] : GraphView (Forwarded γ) where
  nodeCount g := GraphView.nodeCount g.inner
  edgeCount g := GraphView.edgeCount g.inner
  degree g node := GraphView.degree g.inner node
  foldNeighbors g node visit s := GraphView.foldNeighbors g.inner node visit s
  foldWeighted g node visit s := GraphView.foldWeighted g.inner node visit s

/-- A view of a graph that hides its weights. -/
structure Unweighted (γ : Type) where
  inner : γ

instance {γ : Type} [GraphView γ] : GraphView (Unweighted γ) where
  nodeCount g := GraphView.nodeCount g.inner
  edgeCount g := GraphView.edgeCount g.inner
  degree g node := GraphView.degree g.inner node
  foldNeighbors g node visit s := GraphView.foldNeighbors g.inner node visit s

end BulkSync
