import KCut.Graph.EdgeList

/-!
# KCut.Graph.Cut

The weight of a cut, read off a graph and read off the edges it was built from.

Design points:

* `Graph.cutWeight` walks over the stored relationships in one pass, whatever
  the partitions of a search are; it is the independent check of a search's
  cost.
* `EdgeList.cutWeight` counts each given edge once and knows nothing of how a
  graph stores it.
-/

namespace KCut

/-- A dense assignment of communities to the nodes `0, 1, …`. -/
abbrev Assignment := Array Nat

namespace Graph

variable {α : Type} [Weight α]

/-- Adds the weights of the relationships of `v` that lead to another community. -/
def addCutArcs (assignment : Assignment) (v : Nat) (sum : α) (arcs : List (Arc α)) :
    Except Fault α :=
  arcs.foldlM
    (fun sum a => do
      let here ← Buffer.read assignment v
      let there ← Buffer.read assignment a.target
      return if here ≠ there then sum + a.weight else sum)
    sum

/-- The weight of the relationships whose ends lie in different communities. -/
def cutWeight (g : Graph α) (assignment : Assignment) : Except Fault α := do
  if assignment.size ≠ g.nodeCount then
    throw (.sizeMismatch g.nodeCount assignment.size)
  let total ← (List.range g.nodeCount).foldlM
    (fun sum v => do addCutArcs assignment v sum (← g.arcs v)) 0
  return if g.undirected then Weight.half total else total

end Graph

namespace EdgeList

variable {α : Type} [Weight α]

/-- The sum of the given edges' weights. -/
def totalWeight (l : EdgeList α) : α :=
  (l.edges.map Edge.weightOrOne).foldl (· + ·) 0

/-- The sum of the weights of the given edges whose ends lie in different
communities. -/
def cutWeight (l : EdgeList α) (community : Nat → Nat) : α :=
  ((l.edges.filter fun e => community e.source ≠ community e.target).map
    Edge.weightOrOne).foldl (· + ·) 0

end EdgeList

/-- The number of nodes in each of the communities `0, …, k - 1`. -/
def Assignment.communitySizes (assignment : Assignment) (k : Nat) : Except Fault (Array Nat) :=
  assignment.toList.foldlM (fun sizes c => Buffer.update sizes c (· + 1)) (Array.replicate k 0)

end KCut
