import KCut.Weight
import KCut.Fault
import KCut.Graph.Rows
import KCut.Text.Record

/-!
# KCut.Graph.Basic

Weighted graphs over the nodes `0, …, nodeCount - 1`.

Design points:

* Relationships are stored at their source node. An undirected graph stores
  every edge at both ends, a loop therefore twice at its one node.
* `Arc.weight` is always the weight that the solver counts: a graph without
  weights stores ones. A traversal may ask for another weight in that case,
  which is what `visits` takes its fallback for.
-/

namespace KCut

/-- One end of a relationship, stored at the other end. -/
structure Arc (α : Type) where
  /-- The node that the relationship leads to. -/
  target : Nat
  /-- Its weight; one in a graph without weights. -/
  weight : α
deriving Repr, DecidableEq

instance {α : Type} [Weight α] : Inhabited (Arc α) := ⟨⟨0, 0⟩⟩

/-- A weighted graph. -/
structure Graph (α : Type) where
  nodeCount : Nat
  /-- The relationships, stored at their source nodes. -/
  outgoing : Rows (Arc α)
  /-- Whether the relationships carry weights of their own. -/
  weighted : Bool
  /-- Whether every edge is stored at both ends. -/
  undirected : Bool

/-- Runs through a list for as long as `step` asks to continue. -/
def foldWhile {σ β : Type} (step : σ → β → σ × Bool) : σ → List β → σ
  | s, [] => s
  | s, x :: rest =>
      match step s x with
      | (s, true) => foldWhile step s rest
      | (s, false) => s

namespace Graph

variable {α : Type}

/-- The number of stored relationships: an undirected edge counts twice. -/
def relationshipCount (g : Graph α) : Nat :=
  g.outgoing.items.size

/-- The relationships stored at node `v`. -/
def arcs (g : Graph α) (v : Nat) : Except Fault (List (Arc α)) :=
  g.outgoing.row? v

/-- The number of relationships stored at node `v`. -/
def degree (g : Graph α) (v : Nat) : Except Fault Nat :=
  g.outgoing.rowSize? v

/-- The degrees of all nodes. -/
def degrees (g : Graph α) : List Nat :=
  (List.range g.nodeCount).map g.outgoing.rowSize

/-- The targets of the relationships stored at node `v`. -/
def neighbors (g : Graph α) (v : Nat) : Except Fault (List Nat) :=
  return (← g.arcs v).map (·.target)

/-- The relationships of node `v` as a traversal reports them, as source,
target and weight; a graph without weights reports `fallback` for each. -/
def visits (g : Graph α) (fallback : α) (v : Nat) : Except Fault (List (Nat × Nat × α)) :=
  return (← g.arcs v).map fun a => (v, a.target, if g.weighted then a.weight else fallback)

/-- Traverses the relationships of node `v` until the visitor asks to stop. -/
def traverse {σ : Type} (g : Graph α) (fallback : α) (v : Nat)
    (visitor : σ → Nat × Nat × α → σ × Bool) (start : σ) : Except Fault σ :=
  return foldWhile visitor start (← g.visits fallback v)

/-- Traverses the relationships of node `v` with a visitor whose accesses are
checked and that never asks to stop. -/
def traverseAll {σ : Type} (g : Graph α) (fallback : α) (v : Nat)
    (visitor : σ → Nat × Nat × α → Except Fault σ) (start : σ) : Except Fault σ := do
  ← g.traverse fallback v (fun s visit => (s >>= (visitor · visit), true)) (.ok start)

/-- The sum of the edge weights, in storage order. Each undirected edge counts
once, and each edge of a graph without weights as one. -/
def totalEdgeWeight [Weight α] (g : Graph α) : α :=
  let stored :=
    if g.weighted then
      match g.outgoing.items.toList with
      | [] => 0
      | a :: rest => rest.foldl (fun sum b => sum + b.weight) a.weight
    else Weight.ofNat g.relationshipCount
  if g.undirected then Weight.half stored else stored

/-- A one-line description of the graph's size and kind. -/
def describe (g : Graph α) : String :=
  Text.record "CsrGraph" [
    ("node_count", toString g.nodeCount),
    ("relationship_count", toString g.relationshipCount),
    ("weighted", Text.truth g.weighted),
    ("undirected", Text.truth g.undirected)]

end Graph

end KCut
