import KCut.LocalSearch.Basic

/-!
# KCut.LocalSearch.Cost

The weight of the cut of an assignment, summed partition by partition.

Only the relationships stored at a node count for it. An undirected edge is
stored at both of its ends, so each of the two counts half.
-/

namespace KCut.LocalSearch

variable {α : Type} [Weight α]

/-- Adds the weights of the relationships stored at `v` that are cut. -/
def addCut (ls : LocalSearch α) (assignment : Assignment) (sum : α) (v : Nat) :
    Except Fault α := do
  let community ← assignment.get v
  (← ls.graph.arcs v).foldlM
    (fun sum a => do
      return if (← assignment.get a.target) = community then sum else sum + a.weight)
    sum

/-- The share of a partition in the cost. -/
def partitionCost (ls : LocalSearch α) (assignment : Assignment) (p : Partition) :
    Except Fault α := do
  let sum ← p.nodes.foldlM (ls.addCut assignment) 0
  return if ls.graph.undirected then Weight.half sum else sum

/-- The weight of the cut of an assignment, summed over blocks in the given
order. -/
def costIn (ls : LocalSearch α) (order : List Partition) (assignment : Assignment) :
    Except Fault α :=
  order.foldlM
    (fun sum p => do return sum + (← ls.partitionCost assignment p))
    0

end KCut.LocalSearch
