import KCut.Proofs.Construction.Place
import KCut.Proofs.Graph.Incidence

/-!
# KCut.Proofs.Partition.ByCount

Blocks by count are even.

A block starts behind each number of batches that does not reach the last node
(`lt_length_byCount`), so there are no more blocks than workers, and only the last one may be
cut short. Random placement cuts its free nodes into such blocks and draws the nodes of one
block after another, so it visits every free node once and no other one (`count_visited`).
-/

namespace KCut

namespace Partition

variable {count concurrency minBatch i : Nat}

/-- **A block starts behind each number of batches** that does not reach the last node. -/
theorem lt_length_byCount :
    i < (byCount count concurrency minBatch).length ↔
      i * batchSize count concurrency minBatch < count := by
  rw [← lt_add_pred_div (batchSize_pos count concurrency minBatch), byCount]
  simp

theorem getElem_byCount (h : i < (byCount count concurrency minBatch).length) :
    (byCount count concurrency minBatch)[i] =
      ⟨i * batchSize count concurrency minBatch,
        min (batchSize count concurrency minBatch)
          (count - i * batchSize count concurrency minBatch)⟩ := by
  simp [byCount]

/-- The workers together can do all of the work in a batch each, so no further block starts. -/
theorem length_byCount_le (count concurrency minBatch : Nat) :
    (byCount count concurrency minBatch).length ≤ max concurrency 1 := by
  refine Nat.le_of_not_lt fun hmore => ?_
  exact Nat.not_le.2 (lt_length_byCount.1 hmore)
    (total_le_workers_mul_batchSize count concurrency minBatch)

/-- **Only the last block may be cut short.** -/
theorem size_getElem_byCount (h : i < (byCount count concurrency minBatch).length) :
    let p := (byCount count concurrency minBatch)[i]
    let batch := batchSize count concurrency minBatch
    0 < p.size ∧ p.size ≤ batch ∧
      (i + 1 < (byCount count concurrency minBatch).length → p.size = batch) := by
  intro p batch
  have hpos : 0 < batch := batchSize_pos count concurrency minBatch
  have hstart : i * batch < count := lt_length_byCount.1 h
  have hsize : p.size = min batch (count - i * batch) :=
    congrArg Partition.size (getElem_byCount h)
  refine ⟨by omega, by omega, fun hnext => ?_⟩
  -- The next block starts behind a full one.
  have hnext' : (i + 1) * batch < count := lt_length_byCount.1 hnext
  rw [Nat.succ_mul] at hnext'
  omega

end Partition

namespace RandomPlacement

/-- The nodes that are drawn in some tasks, one after another: `placeBlock` draws those of its
block in order. -/
def visited (free : Array Nat) (tasks : List (Partition × Random.Stream)) : List Nat :=
  tasks.flatMap fun task => blockNodes free task.1

variable {concurrency minBatch : Nat} {tasks tasks' : List (Partition × Random.Stream)}

/-- Blocks by count visit the free nodes one after another. -/
theorem visited_eq {free : Array Nat}
    (htasks : tasks.map Prod.fst = Partition.byCount free.size concurrency minBatch) :
    visited free tasks = free.toList := by
  rw [visited, ← List.flatMap_map, htasks, flatMap_blockNodes]

/-- **Every free node is visited once and no other one**, in any order of the blocks. -/
theorem count_visited {n k : Nat} {r : Reservation} (h : r.Sound n k)
    (htasks : tasks.map Prod.fst = Partition.byCount (freeNodes r).size concurrency minBatch)
    (hperm : tasks'.Perm tasks) (v : Nat) :
    (visited (freeNodes r) tasks').count v = if v < n ∧ v ∉ r.taken then 1 else 0 := by
  -- The taken nodes and the blocks behind them list all nodes.
  have hall : (r.taken ++ visited (freeNodes r) tasks').Perm (List.range n) := by
    refine ((hperm.flatMap_right _).append_left _).trans ?_
    rw [taken_append_blocks r htasks]
    exact h.perm
  have honce : r.taken.count v + (visited (freeNodes r) tasks').count v =
      if v < n then 1 else 0 := by
    rw [← List.count_append, hall.count_eq, List.nodup_range.count]
    simp only [List.mem_range]
  by_cases htaken : v ∈ r.taken
  · have hpos := List.count_pos_iff.2 htaken
    rw [if_neg (fun hfree => hfree.2 htaken)]
    split at honce <;> omega
  · rw [List.count_eq_zero.2 htaken, Nat.zero_add] at honce
    simp only [honce, htaken, not_false_eq_true, and_true]

/-- **A placement reserves nodes, splits a stream off for each block of the free ones, and draws
the blocks**, in any order. -/
theorem buildIn_runs {α : Type} {g : Graph α} {k : Nat} (hn : g.nodeCount < Tally.modulus)
    (hk : 0 < k) (hkword : k ≤ 2 ^ 64) (minSizes : Array Nat) (minBatch : Nat) {a : Assignment}
    {t : Tally} (ha : a.size = g.nodeCount) (ht : t.size = k)
    {order : List (Partition × Random.Stream) → List (Partition × Random.Stream)}
    (horder : ∀ tasks, (order tasks).Perm tasks) (scope : Scope α) :
    ∃ r reserved tasks placed scope₁ scope₂ scope',
      Reservation.takeMinimums 0 (minSizes.toList.take k) (⟨Array.range g.nodeCount, 0, a⟩, t.reset)
        { scope with journal := scope.journal.push (.task (.began .construction)) } =
          .ok ((r, reserved), scope₁) ∧
      splitStreams (Partition.byCount (freeNodes r).size scope.concurrency minBatch) scope₁ =
        .ok (tasks, scope₂) ∧
      (order tasks).foldlM (placeBlock k (freeNodes r)) (r.assignment, reserved) = .ok placed ∧
      buildIn order minBatch g minSizes a t scope = .ok (placed, scope') ∧
      r.Sound g.nodeCount k ∧
      tasks.map Prod.fst = Partition.byCount (freeNodes r).size scope.concurrency minBatch := by
  have hstart : Reservation.Sound ⟨Array.range g.nodeCount, 0, a⟩ g.nodeCount k :=
    Reservation.sound_start ha
  have hlength : 0 + (minSizes.toList.take k).length ≤ k := by
    rw [Nat.zero_add, List.length_take]
    exact Nat.min_le_left _ _
  obtain ⟨⟨r, reserved⟩, scope₁, hreserve, hserves, hreserved⟩ :=
    Reservation.takeMinimums_serves hstart (Reservation.holds_start ht) hn hlength
      { scope with journal := scope.journal.push (.task (.began .construction)) }
  dsimp only at hserves hreserved
  obtain ⟨hr, -, -⟩ := hserves.sound hstart fun c hmem => by
    have hlt := Reservation.owners_lt c hmem
    rw [Reservation.length_granted] at hlt
    omega
  obtain ⟨picks, stream, -, rfl, -⟩ := hserves
  obtain ⟨tasks, scope₂, hsplit, htasks, -⟩ :=
    splitStreams_gives (Partition.byCount (freeNodes r).size scope.concurrency minBatch)
      { scope with
        stream
        journal := scope.journal.push (.task (.began .construction)) }
  obtain ⟨a', t', hfold, -, -⟩ := place_free hr hreserved hk hkword hn htasks (horder tasks)
  have hbuild : (buildIn order minBatch g minSizes a t).Gives scope fun placed _ =>
      placed = (a', t') := by
    rw [buildIn, ht]
    simp only [Run.gives_bind, Run.gives_begin, Run.gives_iff_of_eq hreserve,
      Run.gives_check (slice_eq_freeNodes hr), Run.gives_concurrency]
    rw [Run.gives_iff_of_eq hsplit, Run.gives_check hfold]
    simp only [Run.gives_note, Run.gives_finish, Run.gives_pure]
  obtain ⟨_, scope', hbuild, rfl⟩ := hbuild
  exact ⟨r, reserved, tasks, (a', t'), _, scope₂, scope', hreserve, hsplit, hfold, hbuild, hr,
    htasks⟩

end RandomPlacement

namespace Partition

open RandomPlacement (buildIn freeNodes placeBlock splitStreams visited)

/-- **Blocks by count are an even cover.** Read in order, they list every node once. All blocks
are of one batch, but for a last one that may be smaller and is not empty, and there are no more
of them than workers. Random placement cuts the nodes that it has not reserved into such blocks:
they list the free nodes in order, and whatever the order in which the blocks are drawn, every
free node is visited once and no other one. -/
theorem byCount_covers_evenly :
    (∀ count concurrency minBatch : Nat,
      let workers := max concurrency 1
      let batch := max (max (count ⌈/⌉ workers) minBatch) 1
      let blocks := byCount count concurrency minBatch
      blocks.flatMap nodes = List.range count ∧ blocks.length ≤ workers ∧
      ∀ i (h : i < blocks.length), blocks[i].start = i * batch ∧
        0 < blocks[i].size ∧ blocks[i].size ≤ batch ∧
        (i + 1 < blocks.length → blocks[i].size = batch)) ∧
    ∀ {α : Type} (g : Graph α) (k : Nat), g.nodeCount < Tally.modulus → 0 < k → k ≤ 2 ^ 32 →
      ∀ (minSizes : Array Nat) (minBatch : Nat) (a : Assignment) (t : Tally),
        a.size = g.nodeCount → t.size = k →
      ∀ order : List (Partition × Random.Stream) → List (Partition × Random.Stream),
        (∀ tasks, (order tasks).Perm tasks) →
      ∀ scope : Scope α, ∃ r reserved tasks placed scope₁ scope₂ scope',
        Reservation.takeMinimums 0 (minSizes.toList.take k)
          (⟨Array.range g.nodeCount, 0, a⟩, t.reset)
          { scope with journal := scope.journal.push (.task (.began .construction)) } =
            .ok ((r, reserved), scope₁) ∧
        splitStreams (byCount (freeNodes r).size scope.concurrency minBatch) scope₁ =
          .ok (tasks, scope₂) ∧
        (order tasks).foldlM (placeBlock k (freeNodes r)) (r.assignment, reserved) =
          .ok placed ∧
        buildIn order minBatch g minSizes a t scope = .ok (placed, scope') ∧
        tasks.map Prod.fst = byCount (freeNodes r).size scope.concurrency minBatch ∧
        visited (freeNodes r) tasks = (freeNodes r).toList ∧
        ∀ v, (visited (freeNodes r) (order tasks)).count v =
          if v < g.nodeCount ∧ v ∉ r.taken then 1 else 0 := by
  refine ⟨fun count concurrency minBatch => ?_, ?_⟩
  · intro workers batch blocks
    have hbatch : batchSize count concurrency minBatch = batch := batchSize_eq _ _ _
    refine ⟨nodes_byCount count concurrency minBatch, length_byCount_le _ _ _, fun i h => ?_⟩
    rw [← hbatch]
    exact ⟨congrArg Partition.start (getElem_byCount h), size_getElem_byCount h⟩
  · intro α g k hn hk hids minSizes minBatch a t ha ht order horder scope
    have hkword : k ≤ 2 ^ 64 := hids.trans (by decide)
    obtain ⟨r, reserved, tasks, placed, scope₁, scope₂, scope', hreserve, hsplit, hplace, hbuild,
      hr, htasks⟩ := RandomPlacement.buildIn_runs hn hk hkword minSizes minBatch ha ht horder scope
    exact ⟨r, reserved, tasks, placed, scope₁, scope₂, scope', hreserve, hsplit, hplace, hbuild,
      htasks, RandomPlacement.visited_eq htasks,
      RandomPlacement.count_visited hr htasks (horder tasks)⟩

/-- Ten nodes in batches of four, and a placement of three nodes that reserves one and draws the
other two in two blocks, from the last to the first. -/
theorem byCount_covers_ten :
    let g : Graph Rat := (EdgeList.triangle false).toGraph
    let scope : Scope Rat := .start 2 7 .never
    byCount 10 3 0 = [⟨0, 4⟩, ⟨4, 4⟩, ⟨8, 2⟩] ∧
    (byCount 10 3 0).flatMap nodes = List.range 10 ∧
    ∃ r tasks placed scope',
      buildIn List.reverse 1 g #[0, 1] (.zero 3) (.zero 2) scope = .ok (placed, scope') ∧
      tasks.map Prod.fst = byCount (freeNodes r).size 2 1 ∧
      visited (freeNodes r) tasks = (freeNodes r).toList ∧
      ∀ v, (visited (freeNodes r) tasks.reverse).count v =
        if v < 3 ∧ v ∉ r.taken then 1 else 0 := by
  intro g scope
  obtain ⟨heven, hplaced⟩ := byCount_covers_evenly
  obtain ⟨r, -, tasks, placed, -, -, scope', -, -, -, hbuild, htasks, hvisited, honce⟩ :=
    hplaced g 2 (by decide) (by decide) (by decide) #[0, 1] 1 (.zero 3) (.zero 2)
      (Assignment.size_zero 3) (Tally.size_zero 2) List.reverse List.reverse_perm scope
  exact ⟨by decide, (heven 10 3 0).1, r, tasks, placed, scope', hbuild, htasks, hvisited, honce⟩

end Partition

end KCut
