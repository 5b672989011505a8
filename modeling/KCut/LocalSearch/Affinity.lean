import KCut.LocalSearch.Basic

/-!
# KCut.LocalSearch.Affinity

First phase of a round: the affinity of each node to each community, that is
the weight of its incident relationships whose other end lies there.

Design points:

* A loop is never cut, wherever its node goes, and adds to no affinity.
* The row of a node is summed from zero in the order of its incident
  relationships. It depends on the assignment alone, so neither the blocks nor
  the former content of the table can change it.
* The table is handed out in blocks, one after another, of as many rows as the
  partition has nodes.
-/

namespace KCut.LocalSearch

variable {α : Type} [Weight α]

/-- Adds the weight of one incident relationship of `v` to the row of `v`. -/
def addAffinity (assignment : Assignment) (v : Nat) (row : Array α) (a : Arc α) :
    Except Fault (Array α) :=
  if a.target = v then .ok row
  else do
    let community ← assignment.get a.target
    Buffer.update row community (· + a.weight)

/-- The affinity of `v` to each community. -/
def affinityRow (ls : LocalSearch α) (assignment : Assignment) (v : Nat) :
    Except Fault (Array α) := do
  (← ls.incident v).foldlM (addAffinity assignment v) (Array.replicate ls.k 0)

/-- Writes a row into a table, from cell `base` on. -/
def writeRow (table : Array α) (base : Nat) (row : Array α) : Except Fault (Array α) :=
  row.toList.zipIdx.foldlM (fun table (x, j) => Buffer.write table (base + j) x) table

/-- Fills the rows of some nodes one after another, from cell `base` on; gives
the table and the cell after the last row. -/
def fillRows (ls : LocalSearch α) (assignment : Assignment) (nodes : List Nat)
    (state : Array α × Nat) : Except Fault (Array α × Nat) :=
  nodes.foldlM
    (fun (table, base) v => do
      let row ← ls.affinityRow assignment v
      return (← writeRow table base row, base + ls.k))
    state

/-- Fills the block of a partition, which starts where the block before it
ended. -/
def fillBlock (ls : LocalSearch α) (assignment : Assignment) (state : Array α × Nat)
    (p : Partition) : Except Fault (Array α × Nat) := do
  if state.1.size < state.2 + p.size * ls.k then
    throw (.outside (state.2 + p.size * ls.k) state.1.size)
  if ls.k = 0 then
    throw .noColumns
  ls.fillRows assignment p.nodes state

/-- The table of affinities for an assignment. -/
def affinities (ls : LocalSearch α) (assignment : Assignment) (table : Array α) :
    Except Fault (Array α) :=
  return (← ls.partitions.foldlM (ls.fillBlock assignment) (table, 0)).1

end KCut.LocalSearch
