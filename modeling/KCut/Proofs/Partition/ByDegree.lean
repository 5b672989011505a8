import Mathlib.Algebra.Order.BigOperators.Group.List
import KCut.Proofs.Graph.Incidence
import KCut.Proofs.Partition

/-!
# KCut.Proofs.Partition.ByDegree

Blocks by degree are balanced.

The nodes are cut into blocks that have just reached the batch with their last node
(`Full`), and at most one block behind them that has not (`cutByDegree_splits`). Each full
block carries a batch, so there are no more of them than workers, among which the work was
shared to find the batch; and if there are as many, they carry all of it
(`length_le_of_full`).
-/

namespace KCut.Partition

/-! ### Full blocks -/

/-- The work at some nodes: the sum of their degrees. -/
def load (degree : Nat → Nat) (nodes : List Nat) : Nat :=
  (nodes.map degree).sum

@[simp] theorem load_nil (degree : Nat → Nat) : load degree [] = 0 := rfl

@[simp] theorem load_append (degree : Nat → Nat) (l l' : List Nat) :
    load degree (l ++ l') = load degree l + load degree l' := by
  simp [load]

@[simp] theorem load_singleton (degree : Nat → Nat) (v : Nat) : load degree [v] = degree v := by
  simp [load]

theorem load_flatMap (degree : Nat → Nat) (blocks : List Partition) :
    load degree (blocks.flatMap nodes) = (blocks.map fun p => load degree p.nodes).sum := by
  rw [load, List.map_flatMap, List.flatMap_def, List.sum_flatten, List.map_map]
  rfl

/-- A block that carries a batch, but did not before its last node was added. -/
structure Full (degree : Nat → Nat) (batch : Nat) (p : Partition) : Prop where
  reached : batch ≤ load degree p.nodes
  before : load degree p.nodes.dropLast < batch

/-- The block that is being grown is cut off full. -/
theorem full_of_reached {degree : Nat → Nat} {batch start size : Nat}
    (hbefore : load degree (List.range' start size) < batch)
    (hreached : batch ≤ load degree (List.range' start size) + degree (start + size)) :
    Full degree batch ⟨start, size + 1⟩ := by
  have hnodes : nodes ⟨start, size + 1⟩ = List.range' start size ++ [start + size] :=
    List.range'_1_concat
  refine ⟨?_, ?_⟩
  · rw [hnodes, load_append, load_singleton]
    exact hreached
  · rw [hnodes, List.dropLast_concat]
    exact hbefore

/-- **Full blocks come first**: at most one block behind them has not reached the batch. -/
theorem cutByDegree_splits (degree : Nat → Nat) (batch count start size : Nat)
    (hgrowing : load degree (List.range' start size) < batch) :
    ∃ full rest : List Partition,
      cutByDegree batch start size (load degree (List.range' start size))
        ((List.range' (start + size) count).map degree) = full ++ rest ∧
      (∀ p ∈ full, Full degree batch p) ∧
      rest.length ≤ 1 ∧ ∀ p ∈ rest, load degree p.nodes < batch := by
  induction count generalizing start size with
  | zero =>
      refine ⟨[], if size = 0 then [] else [⟨start, size⟩], rfl, by simp, ?_, ?_⟩
      · split <;> simp
      · intro p hp
        split at hp
        · exact absurd hp List.not_mem_nil
        · rw [List.mem_singleton.1 hp]
          exact hgrowing
  | succ count ih =>
      rw [List.range'_succ, List.map_cons, cutByDegree]
      split
      · next hreached =>
        -- The next block starts without a node.
        obtain ⟨full, rest, hcut, hfull, hrest⟩ := ih (start + size + 1) 0 (by simp; omega)
        rw [Nat.add_zero, List.range'_zero, load_nil] at hcut
        refine ⟨⟨start, size + 1⟩ :: full, rest, by rw [hcut, List.cons_append], ?_, hrest⟩
        exact List.forall_mem_cons.2 ⟨full_of_reached hgrowing hreached, hfull⟩
      · next hgrows =>
        have hsnoc : load degree (List.range' start (size + 1)) =
            load degree (List.range' start size) + degree (start + size) := by
          rw [List.range'_1_concat, load_append, load_singleton]
        rw [← hsnoc] at hgrows ⊢
        exact ih start (size + 1) (Nat.lt_of_not_le hgrows)

/-! ### How many blocks there are -/

/-- Each full block carries a batch. -/
theorem length_mul_le_load {degree : Nat → Nat} {batch : Nat} {full : List Partition}
    (hfull : ∀ p ∈ full, Full degree batch p) :
    full.length * batch ≤ load degree (full.flatMap nodes) := by
  have hsum := List.card_nsmul_le_sum (full.map fun p => load degree p.nodes) batch <| by
    intro work hwork
    obtain ⟨p, hp, rfl⟩ := List.mem_map.1 hwork
    exact (hfull p hp).reached
  rw [List.length_map, smul_eq_mul] at hsum
  rw [load_flatMap]
  exact hsum

/-- There are no more full blocks than workers, and if there are as many, then nothing is
left for the other blocks. -/
theorem length_le_of_full {degree : Nat → Nat} {workers batch : Nat} (hbatch : 0 < batch)
    {full rest : List Partition} (hfull : ∀ p ∈ full, Full degree batch p)
    (htotal : load degree ((full ++ rest).flatMap nodes) ≤ workers * batch) :
    full.length ≤ workers ∧
      (full.length = workers → load degree (rest.flatMap nodes) = 0) := by
  have hcarried := length_mul_le_load hfull
  rw [List.flatMap_append, load_append] at htotal
  constructor
  · exact Nat.le_of_mul_le_mul_right (by omega) hbatch
  · rintro rfl
    omega

/-! ### The blocks of a graph -/

section

variable {α : Type} [Weight α] {l : EdgeList α} {g : Graph α}

/-- The blocks of a graph are cut from its first node on, with nothing grown before it. -/
theorem byDegree_splits (hbuild : l.build = .ok g) (concurrency minBatch : Nat) :
    ∃ full rest : List Partition, byDegree g.degrees concurrency minBatch = full ++ rest ∧
      (∀ p ∈ full,
        Full g.outgoing.rowSize (batchSize g.relationshipCount concurrency minBatch) p) ∧
      rest.length ≤ 1 ∧
      ∀ p ∈ rest, load g.outgoing.rowSize p.nodes <
        batchSize g.relationshipCount concurrency minBatch := by
  have htotal : g.degrees.foldl (· + ·) 0 = g.relationshipCount := by
    rw [← EdgeList.sum_degrees_of_build hbuild, List.sum_eq_foldl]
  have hcut := cutByDegree_splits g.outgoing.rowSize
    (batchSize g.relationshipCount concurrency minBatch) g.nodeCount 0 0
    (batchSize_pos _ concurrency minBatch)
  rw [List.range'_zero, load_nil, Nat.add_zero, ← List.range_eq_range'] at hcut
  rw [byDegree, htotal]
  exact hcut

/-- **Blocks by degree are a balanced cover.** Read in order, they list every node once. All
blocks but possibly the last one are full: they carry a batch, which they do not without
their last node. There is at most one block more than there are workers, and if there is
one more, no relationship is stored at its nodes. -/
theorem byDegree_balances (hbuild : l.build = .ok g) (concurrency minBatch : Nat) :
    let workers := max concurrency 1
    let batch := max (max (g.relationshipCount ⌈/⌉ workers) minBatch) 1
    let blocks := byDegree g.degrees concurrency minBatch
    blocks.flatMap nodes = List.range g.nodeCount ∧
    (∀ p ∈ blocks, 0 < p.size) ∧ (g.nodeCount = 0 → blocks = []) ∧
    ∃ degree : Nat → Nat, (∀ v < g.nodeCount, g.degree v = .ok (degree v)) ∧
      (∃ full rest : List Partition, blocks = full ++ rest ∧
        (∀ p ∈ full, batch ≤ load degree p.nodes ∧ load degree p.nodes.dropLast < batch) ∧
        rest.length ≤ 1 ∧ ∀ p ∈ rest, load degree p.nodes < batch) ∧
      blocks.length ≤ workers + 1 ∧
      (blocks.length = workers + 1 →
        ∃ p, blocks.getLast? = some p ∧ ∀ v ∈ p.nodes, degree v = 0) := by
  intro workers batch blocks
  have hcover : blocks.flatMap nodes = List.range g.nodeCount := by
    show (byDegree g.degrees concurrency minBatch).flatMap nodes = _
    rw [nodes_byDegree, Graph.degrees, List.length_map, List.length_range]
  have hnonempty : ∀ p ∈ blocks, 0 < p.size := size_pos_cutByDegree _ _ _ _ _
  have hload : load g.outgoing.rowSize (List.range g.nodeCount) = g.relationshipCount :=
    EdgeList.sum_degrees_of_build hbuild
  obtain ⟨full, rest, hblocks, hfull, hlast, hrest⟩ := byDegree_splits hbuild concurrency minBatch
  have hcarried : load g.outgoing.rowSize ((full ++ rest).flatMap nodes) ≤
      workers * batchSize g.relationshipCount concurrency minBatch := by
    rw [← hblocks, hcover, hload]
    exact total_le_workers_mul_batchSize g.relationshipCount concurrency minBatch
  have hcount := length_le_of_full (batchSize_pos _ concurrency minBatch) hfull hcarried
  refine ⟨hcover, hnonempty, ?_, g.outgoing.rowSize, ?_, ⟨full, rest, hblocks, ?_, hlast, hrest⟩,
    ?_, ?_⟩
  · intro hnone
    show byDegree g.degrees concurrency minBatch = []
    rw [byDegree, Graph.degrees, hnone]
    rfl
  · exact fun v hv => (EdgeList.wellFormed_of_build hbuild).degree_eq hv
  · intro p hp
    exact ⟨(hfull p hp).reached, (hfull p hp).before⟩
  · show (byDegree g.degrees concurrency minBatch).length ≤ _
    rw [hblocks, List.length_append]
    omega
  · intro hmany
    have hlength : blocks.length = full.length + rest.length := by
      rw [← List.length_append, ← hblocks]
    obtain ⟨p, rfl⟩ : ∃ p, rest = [p] := List.length_eq_one_iff.1 (by omega)
    have hgetLast : (full ++ [p]).getLast? = some p := List.getLast?_concat
    refine ⟨p, by rw [← hgetLast, ← hblocks], ?_⟩
    intro v hv
    have hnothing := hcount.2 (by omega)
    rw [List.flatMap_singleton, load, List.sum_eq_zero_iff] at hnothing
    exact hnothing _ (List.mem_map_of_mem hv)

end

/-- One relationship among three nodes and a single worker, asked for as none: the first
node is a full block, and nothing is stored at the others. -/
theorem byDegree_lone_edge :
    let l : EdgeList Rat := ⟨3, false, [⟨0, 1, none⟩]⟩
    byDegree l.toGraph.degrees 0 0 = [⟨0, 1⟩, ⟨1, 2⟩] ∧
      ∀ v ∈ [1, 2], l.toGraph.degree v = .ok 0 := by
  intro l
  have hblocks : byDegree l.toGraph.degrees 0 0 = [⟨0, 1⟩, ⟨1, 2⟩] := by decide +kernel
  obtain ⟨-, -, -, degree, hdegree, -, -, hmany⟩ :=
    byDegree_balances (l := l) (g := l.toGraph) rfl 0 0
  rw [hblocks] at hmany
  obtain ⟨p, hlast, hzero⟩ := hmany rfl
  obtain rfl : (⟨1, 2⟩ : Partition) = p := Option.some.inj hlast
  refine ⟨hblocks, fun v hv => ?_⟩
  have hlt : v < 3 := by
    simp only [List.mem_cons, List.not_mem_nil, or_false] at hv
    omega
  rw [hdegree v hlt, hzero v hv]

end KCut.Partition
