import KCut.Graph.EdgeList

/-!
# KCut.Graph.Family

Families of undirected graphs with well-known cuts.
-/

namespace KCut.EdgeList

variable {α : Type}

/-- An undirected graph of edges without weights. -/
def ofPairs (nodeCount : Nat) (pairs : List (Nat × Nat)) : EdgeList α where
  nodeCount := nodeCount
  undirected := true
  edges := pairs.map fun (s, t) => ⟨s, t, none⟩

/-- The pairs of distinct nodes among `offset, …, offset + n - 1`. -/
def cliquePairs (offset n : Nat) : List (Nat × Nat) :=
  (List.range n).flatMap fun i =>
    (List.range' (i + 1) (n - (i + 1))).map fun j => (offset + i, offset + j)

/-- Every pair of `n` nodes is joined. -/
def complete (n : Nat) : EdgeList α :=
  ofPairs n (cliquePairs 0 n)

/-- A ring of `n` nodes. -/
def cycle (n : Nat) : EdgeList α :=
  ofPairs n ((List.range n).map fun i => (i, (i + 1) % n))

/-- Node 0 is joined to every one of `leaves` leaves. -/
def star (leaves : Nat) : EdgeList α :=
  ofPairs (leaves + 1) ((List.range leaves).map fun i => (0, i + 1))

/-- A star with a leaf for each of the weights. -/
def weightedStar (weights : List α) : EdgeList α where
  nodeCount := weights.length + 1
  undirected := true
  edges := weights.mapIdx fun i w => ⟨0, i + 1, some w⟩

/-- A grid of `rows` times `columns` nodes, numbered row by row. -/
def grid (rows columns : Nat) : EdgeList α :=
  ofPairs (rows * columns) <|
    (List.range rows).flatMap fun r =>
      (List.range columns).flatMap fun c =>
        let node := r * columns + c
        (if c + 1 < columns then [(node, node + 1)] else []) ++
          (if r + 1 < rows then [(node, node + columns)] else [])

/-- Two complete graphs of `size` nodes each, joined by one edge. -/
def twoCliques (size : Nat) : EdgeList α :=
  ofPairs (2 * size) <|
    cliquePairs 0 size ++ cliquePairs size size ++
      (if 0 < size then [(size - 1, size)] else [])

end KCut.EdgeList
