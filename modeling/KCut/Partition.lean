/-!
# KCut.Partition

Contiguous blocks of node ids, the unit in which work is handed to workers.

Design points:

* A partition list is read in order. Its boundaries matter to a result: each
  block of a construction draws from a random stream of its own, and the cost
  of a cut is summed block by block.
* `Partition.byDegree` balances stored relationships and `Partition.byCount`
  balances nodes. Both cut blocks of at least `batchSize`.
-/

namespace KCut

/-- The node ids `start, …, start + size - 1`. -/
structure Partition where
  /-- The first node of the block. -/
  start : Nat
  size : Nat
deriving Repr, DecidableEq, Inhabited

namespace Partition

/-- The nodes of a block, in order. -/
def nodes (p : Partition) : List Nat :=
  List.range' p.start p.size

/-- The node id after the last one of the block. -/
def stop (p : Partition) : Nat :=
  p.start + p.size

@[simp] theorem length_nodes (p : Partition) : p.nodes.length = p.size := by
  simp [nodes]

theorem mem_nodes {p : Partition} {v : Nat} : v ∈ p.nodes ↔ p.start ≤ v ∧ v < p.stop := by
  simp [nodes, stop, List.mem_range'_1]

/-- The least amount of work in a full block: an even share of `total` among
`concurrency` workers, rounded up, but never less than `minBatch` nor than one. -/
def batchSize (total concurrency minBatch : Nat) : Nat :=
  let workers := max concurrency 1
  max (max ((total + workers - 1) / workers) minBatch) 1

/-- Cuts off a block as soon as its summed degree reaches `batch`. The block
being grown starts at `start`, has `size` nodes so far and holds `load`; the
list gives the degrees of the nodes that follow. -/
def cutByDegree (batch : Nat) (start size load : Nat) : List Nat → List Partition
  | [] => if size = 0 then [] else [⟨start, size⟩]
  | degree :: rest =>
      if batch ≤ load + degree then
        ⟨start, size + 1⟩ :: cutByDegree batch (start + size + 1) 0 0 rest
      else
        cutByDegree batch start (size + 1) (load + degree) rest

/-- Blocks that carry about the same number of stored relationships each, for
nodes of the given degrees. What is left after the last full block forms a
block of its own. -/
def byDegree (degrees : List Nat) (concurrency minBatch : Nat) : List Partition :=
  cutByDegree (batchSize (degrees.foldl (· + ·) 0) concurrency minBatch) 0 0 0 degrees

/-- Blocks of equal size over `0, …, count - 1`; the last one may be shorter. -/
def byCount (count concurrency minBatch : Nat) : List Partition :=
  let batch := batchSize count concurrency minBatch
  (List.range ((count + batch - 1) / batch)).map fun i =>
    ⟨i * batch, min batch (count - i * batch)⟩

end Partition

end KCut
