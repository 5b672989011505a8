import KCut.Graph.Basic

/-!
# KCut.Graph.Incoming

The reverse adjacency of a graph: every stored relationship `s → v`, keyed by
its target `v`.

A search on a directed graph has to see both ends of a relationship; in an
undirected graph every edge is stored at both ends already. The sources of a
row are in increasing order, and those of one source in storage order.

Design points:

* `incoming` sorts the list of all relationships, `reversed`.
* `sortIncoming` needs no such list. It traverses the graph twice, to count and
  to fill. A relationship is counted one cell behind its target, so that the
  running totals, taken in place, are the offsets.
-/

namespace KCut.Graph

variable {α : Type}

/-- The stored relationships of a graph, node by node, keyed by their targets;
`target` is then the node that the relationship comes from. -/
def reversed (g : Graph α) : List (Nat × Arc α) :=
  (List.range g.nodeCount).flatMap fun v =>
    (g.outgoing.row v).map fun a => (a.target, ⟨v, a.weight⟩)

/-- The relationships that enter each node. -/
def incoming [Weight α] (g : Graph α) : Rows (Arc α) :=
  Rows.ofList g.nodeCount g.reversed

/-- Counts a relationship behind the cell of its target. -/
def countEntering (counts : Array Nat) (visit : Nat × Nat × α) : Except Fault (Array Nat) :=
  Buffer.update counts (visit.2.1 + 1) (· + 1)

/-- Adds the total up to cell `v` to the cell behind it. -/
def addTotalTo (counts : Array Nat) (v : Nat) : Except Fault (Array Nat) := do
  let total ← Buffer.read counts v
  Buffer.update counts (v + 1) (· + total)

/-- Where the relationships that enter each node start. -/
def enteringOffsets [Weight α] (g : Graph α) : Except Fault (Array Nat) := do
  let counts ← (List.range g.nodeCount).foldlM
    (fun counts v => g.traverseAll 0 v countEntering counts)
    (Array.replicate (g.nodeCount + 1) 0)
  (List.range g.nodeCount).foldlM addTotalTo counts

/-- Writes a relationship into the row of its target. -/
def placeEntering [Weight α] (g : Graph α) (state : Array (Arc α) × Array Nat)
    (visit : Nat × Nat × α) : Except Fault (Array (Arc α) × Array Nat) :=
  Rows.place state (visit.2.1, ⟨visit.1, if g.weighted then visit.2.2 else 1⟩)

/-- The relationships that enter each node, sorted with each access checked. -/
def sortIncoming [Weight α] (g : Graph α) : Except Fault (Rows (Arc α)) := do
  let offsets ← g.enteringOffsets
  let (items, _) ← (List.range g.nodeCount).foldlM
    (fun state v => g.traverseAll 0 v g.placeEntering state)
    (← Rows.blankItems g.nodeCount offsets)
  return ⟨offsets, items⟩

end KCut.Graph
