import Mathlib.Algebra.GroupWithZero.Nat
import Mathlib.Algebra.Order.Floor.Div
import KCut.Partition

/-!
# KCut.Proofs.Partition

Partition lists are covers: read in order, their blocks list every node once. Where all the
work there is fits into one batch there is one block, however many workers there are.
-/

namespace KCut.Partition

theorem start_le_stop (p : Partition) : p.start ≤ p.stop :=
  Nat.le_add_right _ _

theorem batchSize_pos (total concurrency minBatch : Nat) :
    0 < batchSize total concurrency minBatch := by
  simp only [batchSize]
  omega

/-- The batch is an even share of the work, rounded up, unless more is asked for. -/
theorem batchSize_eq (total concurrency minBatch : Nat) :
    batchSize total concurrency minBatch =
      max (max (total ⌈/⌉ max concurrency 1) minBatch) 1 := by
  rw [Nat.ceilDiv_eq_add_pred_div]
  rfl

/-- The workers together can carry all of the work. -/
theorem total_le_workers_mul_batchSize (total concurrency minBatch : Nat) :
    total ≤ max concurrency 1 * batchSize total concurrency minBatch := by
  have hworkers : 0 < max concurrency 1 := by omega
  have hshare : total ≤ max concurrency 1 * (total ⌈/⌉ max concurrency 1) :=
    le_smul_ceilDiv hworkers
  refine Nat.le_trans hshare (Nat.mul_le_mul_left _ ?_)
  rw [batchSize_eq]
  omega

/-! ### Blocks by degree -/

theorem nodes_cutByDegree (batch : Nat) (degrees : List Nat) (start size load : Nat) :
    (cutByDegree batch start size load degrees).flatMap nodes =
      List.range' start (size + degrees.length) := by
  induction degrees generalizing start size load with
  | nil =>
      unfold cutByDegree
      split
      · next h => simp [h]
      · simp [nodes]
  | cons degree rest ih =>
      unfold cutByDegree
      split
      · -- The block is cut off behind this node, and the next one starts there.
        rw [List.flatMap_cons, ih, nodes, Nat.add_assoc start, List.range'_append_1]
        congr 1
        simp only [List.length_cons]
        omega
      · rw [ih]
        congr 1
        simp only [List.length_cons]
        omega

theorem size_pos_cutByDegree (batch : Nat) (degrees : List Nat) (start size load : Nat) :
    ∀ p ∈ cutByDegree batch start size load degrees, 0 < p.size := by
  induction degrees generalizing start size load with
  | nil =>
      intro p hp
      unfold cutByDegree at hp
      split at hp
      · exact absurd hp List.not_mem_nil
      · next h =>
        rw [List.mem_singleton.1 hp]
        exact Nat.pos_of_ne_zero h
  | cons degree rest ih =>
      intro p hp
      unfold cutByDegree at hp
      split at hp
      · rcases List.mem_cons.1 hp with rfl | hp
        · exact Nat.succ_pos size
        · exact ih _ _ _ p hp
      · exact ih _ _ _ p hp

/-- **Blocks by degree are a cover.** -/
theorem nodes_byDegree (degrees : List Nat) (concurrency minBatch : Nat) :
    (byDegree degrees concurrency minBatch).flatMap nodes = List.range degrees.length := by
  rw [byDegree, nodes_cutByDegree, Nat.zero_add, List.range_eq_range']

/-! ### Blocks by count -/

/-- The blocks before the `m`-th one list the nodes below `m` batches. -/
theorem nodes_blocks_lt (batch count m : Nat) :
    ((List.range m).map fun i =>
      (⟨i * batch, min batch (count - i * batch)⟩ : Partition)).flatMap nodes =
      List.range' 0 (min (m * batch) count) := by
  induction m with
  | zero => simp
  | succ m ih =>
      rw [List.range_succ, List.map_append, List.flatMap_append, ih]
      simp only [List.map_cons, List.map_nil, List.flatMap_cons, List.flatMap_nil,
        List.append_nil, nodes]
      rw [Nat.succ_mul]
      rcases Nat.le_total (m * batch) count with h | h
      · have happend := List.range'_append_1 (s := 0) (m := m * batch)
          (n := min batch (count - m * batch))
        rw [Nat.zero_add] at happend
        rw [Nat.min_eq_left h, happend]
        congr 1
        omega
      · have hempty : min batch (count - m * batch) = 0 := by omega
        rw [hempty, List.range'_zero, List.append_nil]
        congr 1
        omega

/-- **Blocks by count are a cover.** -/
theorem nodes_byCount (count concurrency minBatch : Nat) :
    (byCount count concurrency minBatch).flatMap nodes = List.range count := by
  have hpos := batchSize_pos count concurrency minBatch
  rw [byCount, nodes_blocks_lt, List.range_eq_range']
  congr 1
  -- The division is rounded up, so the blocks reach the last node.
  rw [Nat.min_eq_right]
  have hdiv := Nat.div_add_mod (count + batchSize count concurrency minBatch - 1)
    (batchSize count concurrency minBatch)
  have hmod := Nat.mod_lt (count + batchSize count concurrency minBatch - 1) hpos
  rw [Nat.mul_comm] at hdiv
  omega

/-- A quotient that is rounded up counts the multiples below `count`. -/
theorem lt_add_pred_div {count batch i : Nat} (hbatch : 0 < batch) :
    i < (count + batch - 1) / batch ↔ i * batch < count := by
  rw [Nat.lt_div_iff_mul_lt hbatch]
  omega

/-- A block starts where there is a node. -/
theorem start_lt_of_mem_byCount {count concurrency minBatch : Nat} {p : Partition}
    (h : p ∈ byCount count concurrency minBatch) : p.start < count := by
  obtain ⟨i, hi, rfl⟩ := List.mem_map.1 h
  exact (lt_add_pred_div (batchSize_pos count concurrency minBatch)).1 (List.mem_range.1 hi)

/-- A block ends where there are nodes. -/
theorem stop_le_of_mem_byCount {count concurrency minBatch : Nat} {p : Partition}
    (h : p ∈ byCount count concurrency minBatch) : p.stop ≤ count := by
  have hstart := start_lt_of_mem_byCount h
  obtain ⟨i, -, rfl⟩ := List.mem_map.1 h
  simp only [stop] at hstart ⊢
  omega

/-! ### Single blocks -/

theorem le_batchSize (total concurrency minBatch : Nat) :
    minBatch ≤ batchSize total concurrency minBatch := by
  simp only [batchSize]
  omega

/-- One block of all nodes, or none if there are no nodes. -/
def whole (n : Nat) : List Partition :=
  if n = 0 then [] else [⟨0, n⟩]

/-- A load that never reaches the batch is never cut off. -/
theorem cutByDegree_of_sum_lt {batch : Nat} {degrees : List Nat} {start size load : Nat}
    (h : load + degrees.sum < batch) :
    cutByDegree batch start size load degrees =
      if size + degrees.length = 0 then [] else [⟨start, size + degrees.length⟩] := by
  induction degrees generalizing size load with
  | nil => rfl
  | cons degree rest ih =>
      rw [List.sum_cons] at h
      rw [cutByDegree, if_neg (by omega), ih (by omega), List.length_cons, Nat.add_right_comm,
        Nat.add_assoc]

/-- **Fewer relationships than a batch form one block.** -/
theorem byDegree_eq_whole {degrees : List Nat} {minBatch : Nat} (h : degrees.sum < minBatch)
    (concurrency : Nat) : byDegree degrees concurrency minBatch = whole degrees.length := by
  rw [byDegree, cutByDegree_of_sum_lt, Nat.zero_add, whole]
  rw [Nat.zero_add]
  exact Nat.lt_of_lt_of_le h (le_batchSize _ concurrency minBatch)

/-- **No more nodes than a batch form one block.** -/
theorem byCount_eq_whole {count minBatch : Nat} (h : count ≤ minBatch) (concurrency : Nat) :
    byCount count concurrency minBatch = whole count := by
  have hpos := batchSize_pos count concurrency minBatch
  have hfits := Nat.le_trans h (le_batchSize count concurrency minBatch)
  simp only [byCount]
  generalize batchSize count concurrency minBatch = batch at hpos hfits
  rw [whole]
  split
  · next hzero => rw [hzero, Nat.div_eq_of_lt (by omega), List.range_zero, List.map_nil]
  · have hone : (count + batch - 1) / batch = 1 :=
      Nat.div_eq_of_lt_le (by omega) (by omega)
    rw [hone, List.range_one, List.map_singleton, Nat.zero_mul, Nat.sub_zero,
      Nat.min_eq_right hfits]

end KCut.Partition
