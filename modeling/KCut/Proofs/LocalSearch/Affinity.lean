import Mathlib.Algebra.Field.Rat
import KCut.LocalSearch.Affinity
import KCut.Proofs.Graph.Cut
import KCut.Proofs.LocalSearch.BestMove
import KCut.Proofs.LocalSearch.Ready

/-!
# KCut.Proofs.LocalSearch.Affinity

The first phase of a round fills its table with the affinities of the graph.

The table is filled block by block and row by row from the front. What has been
filled after `m` rows is said by `Filled`; the former content plays no part in
it, so a table may be used again and again (`affinities_rows`). This holds for all
weights; for exact ones the rows hold the affinities of the graph
(`affinities_eq`).
-/

namespace KCut.LocalSearch

section

variable {α : Type} [Weight α] {ls : LocalSearch α} {a : Assignment} {v : Nat}

/-! ### Rows -/

/-- The weights of the relationships of `v` with other nodes in community `c`, added to zero
in the order of the list. -/
def sumToward (a : Assignment) (v c : Nat) (arcs : List (Arc α)) : α :=
  ((arcs.filter fun x => x.target ≠ v ∧ a.community x.target = c).map (·.weight)).foldl (· + ·) 0

/-- One more relationship counts last, if at all. -/
theorem sumToward_concat (a : Assignment) (v c : Nat) (arcs : List (Arc α)) (x : Arc α) :
    sumToward a v c (arcs ++ [x]) =
      if x.target ≠ v ∧ a.community x.target = c then sumToward a v c arcs + x.weight
      else sumToward a v c arcs := by
  rw [sumToward, List.filter_append, List.filter_singleton, List.map_append, List.foldl_append]
  split
  · next hcounts =>
    rw [decide_eq_true hcounts]
    rfl
  · next hcounts =>
    rw [decide_eq_false hcounts]
    rfl

/-- Adding up the weights of some incident relationships: in the cell of a community they come
in their order. -/
theorem foldlM_addAffinity (ha : a.Legal ls.graph.nodeCount ls.k) {arcs : List (Arc α)}
    (harcs : ∀ x ∈ arcs, x.target < ls.graph.nodeCount) :
    ∃ row, arcs.foldlM (addAffinity a v) (Array.replicate ls.k 0) = .ok row ∧
      row.size = ls.k ∧ ∀ c < ls.k, row[c]? = some (sumToward a v c arcs) := by
  refine foldlM_yields (fun done (row : Array α) => row.size = ls.k ∧
    ∀ c < ls.k, row[c]? = some (sumToward a v c done)) ?_ ?_
  · exact ⟨Array.size_replicate, fun c hc => by rw [Array.getElem?_replicate, if_pos hc]; rfl⟩
  · intro done x rest row harcs' hinv
    obtain ⟨hsize, hrow⟩ := hinv
    have hx : x.target < ls.graph.nodeCount :=
      harcs x (harcs' ▸ List.mem_append_right _ List.mem_cons_self)
    unfold addAffinity
    by_cases hloop : x.target = v
    · -- A loop adds nothing.
      rw [if_pos hloop]
      refine ⟨row, rfl, hsize, fun c hc => ?_⟩
      rw [hrow c hc, sumToward_concat, if_neg fun h => h.1 hloop]
    · rw [if_neg hloop, Assignment.get_eq (ha.size_eq ▸ hx), ok_bind,
        Buffer.update_eq_ok (hsize ▸ ha.community_lt hx)]
      refine ⟨_, rfl, by rw [Array.size_modify, hsize], fun c hc => ?_⟩
      rw [Array.getElem?_modify, hrow c hc, sumToward_concat]
      by_cases hcommunity : a.community x.target = c
      · simp [hcommunity, hloop]
      · simp [hcommunity]

/-- **A row holds the ordered sums of its node.** -/
theorem affinityRow_sums (ready : ls.Ready) (ha : a.Legal ls.graph.nodeCount ls.k)
    (hv : v < ls.graph.nodeCount) :
    ∃ row, ls.affinityRow a v = .ok row ∧ row.size = ls.k ∧
      ∀ c < ls.k, row[c]? = some (sumToward a v c (ls.graph.incidents v)) := by
  obtain ⟨row, hfold, hsize, hrow⟩ :=
    foldlM_addAffinity (v := v) ha (ready.graph.incidents_lt hv)
  exact ⟨row, by rw [affinityRow, ready.incident_eq hv, ok_bind, hfold], hsize, hrow⟩

/-- A row has a cell for each community. -/
theorem affinityRow_gives (ready : ls.Ready) (ha : a.Legal ls.graph.nodeCount ls.k)
    (hv : v < ls.graph.nodeCount) :
    ∃ row, ls.affinityRow a v = .ok row ∧ row.size = ls.k := by
  obtain ⟨row, hrow, hsize, -⟩ := affinityRow_sums ready ha hv
  exact ⟨row, hrow, hsize⟩

/-! ### The table -/

omit [Weight α] in
/-- Writing numbered items into the cells from `base` on. -/
theorem foldlM_write_zipIdx (base : Nat) (xs : List α) (j : Nat) (table : Array α)
    (hfits : base + j + xs.length ≤ table.size) :
    ∃ table', (xs.zipIdx j).foldlM
        (fun table (x, j) => Buffer.write table (base + j) x) table = .ok table' ∧
      table'.size = table.size ∧ ∀ i : Nat, table'[i]? =
        if base + j ≤ i ∧ i < base + j + xs.length then xs[i - (base + j)]? else table[i]? := by
  induction xs generalizing j table with
  | nil =>
      refine ⟨table, rfl, rfl, fun i => ?_⟩
      rw [List.length_nil, if_neg (by omega)]
  | cons x rest ih =>
      rw [List.length_cons] at hfits
      have hj : base + j < table.size := by omega
      obtain ⟨table', hrest, hsize, hcells⟩ :=
        ih (j + 1) (table.setIfInBounds (base + j) x) (by rw [Array.size_setIfInBounds]; omega)
      rw [Array.size_setIfInBounds] at hsize
      refine ⟨table', ?_, hsize, fun i => ?_⟩
      · rw [List.zipIdx_cons, List.foldlM_cons]
        dsimp only
        rw [Buffer.write_eq_ok hj, ok_bind, hrest]
      · rw [hcells i, List.length_cons, Array.getElem?_setIfInBounds]
        -- The first item lies in front of the cells that the others are written to.
        by_cases hi : i = base + j
        · subst hi
          rw [if_neg (by omega), if_pos rfl, if_pos hj, if_pos (by omega), Nat.sub_self,
            List.getElem?_cons_zero]
        · by_cases hrow : base + (j + 1) ≤ i ∧ i < base + (j + 1) + rest.length
          · have hshift : i - (base + j) = i - (base + (j + 1)) + 1 := by omega
            rw [if_pos hrow, if_pos (by omega), hshift, List.getElem?_cons_succ]
          · rw [if_neg hrow, if_neg (Ne.symm hi), if_neg (by omega)]

omit [Weight α] in
/-- Writing a row changes the cells of the row and no others. -/
theorem writeRow_eq (table : Array α) (base : Nat) (row : Array α)
    (hfits : base + row.size ≤ table.size) :
    ∃ table', writeRow table base row = .ok table' ∧ table'.size = table.size ∧
      ∀ i : Nat, table'[i]? =
        if base ≤ i ∧ i < base + row.size then row[i - base]? else table[i]? := by
  obtain ⟨table', hfold, hsize, hcells⟩ := foldlM_write_zipIdx base row.toList 0 table
    (by rw [Array.length_toList, Nat.add_zero]; exact hfits)
  refine ⟨table', hfold, hsize, fun i => ?_⟩
  rw [hcells i, Array.length_toList, Nat.add_zero, Array.getElem?_toList]

/-- The first `m` rows of a table are those of their nodes, and the next row is
written behind them. -/
structure Filled (ls : LocalSearch α) (a : Assignment) (m : Nat) (state : Array α × Nat) :
    Prop where
  size_eq : state.1.size = ls.graph.nodeCount * ls.k
  base_eq : state.2 = m * ls.k
  row_eq : ∀ {v c : Nat} {row : Array α}, v < m → c < ls.k → ls.affinityRow a v = .ok row →
    state.1[v * ls.k + c]? = row[c]?

/-- One more row is filled. -/
theorem Filled.write {m : Nat} {state : Array α × Nat} (h : Filled ls a m state)
    (hm : m < ls.graph.nodeCount) {row : Array α} (hrow : ls.affinityRow a m = .ok row)
    (hsize : row.size = ls.k) :
    ∃ table, writeRow state.1 state.2 row = .ok table ∧
      Filled ls a (m + 1) (table, state.2 + ls.k) := by
  have hfits := row_fits ls hm
  rw [Nat.succ_mul] at hfits
  obtain ⟨table, hwrite, htable, hcells⟩ := writeRow_eq state.1 state.2 row
    (by rw [h.size_eq, h.base_eq, hsize]; exact hfits)
  refine ⟨table, hwrite, by rw [htable, h.size_eq], by rw [h.base_eq, Nat.succ_mul], ?_⟩
  intro v c row' hv hc hrow'
  rw [hcells, h.base_eq, hsize]
  rcases Nat.lt_or_eq_of_le (Nat.le_of_lt_succ hv) with hlt | rfl
  · -- The rows before lie in front of the new one.
    have hbefore := row_fits ls hlt
    rw [Nat.succ_mul] at hbefore
    rw [if_neg (by omega), h.row_eq hlt hc hrow']
  · obtain rfl : row = row' := Except.ok.inj (hrow.symm.trans hrow')
    rw [if_pos (by omega), Nat.add_sub_cancel_left]

theorem Filled.fillRows (ready : ls.Ready) (ha : a.Legal ls.graph.nodeCount ls.k) {m len : Nat}
    (hm : m + len ≤ ls.graph.nodeCount) {state : Array α × Nat} (h : Filled ls a m state) :
    ∃ state', ls.fillRows a (List.range' m len) state = .ok state' ∧
      Filled ls a (m + len) state' := by
  induction len generalizing m state with
  | zero => exact ⟨state, rfl, h⟩
  | succ len ih =>
      obtain ⟨row, hrow, hsize⟩ := affinityRow_gives (v := m) ready ha (by omega)
      obtain ⟨table, hwrite, hnext⟩ := h.write (by omega) hrow hsize
      obtain ⟨state', hrest, hfilled⟩ := ih (by omega) hnext
      refine ⟨state', ?_, by rwa [Nat.add_right_comm] at hfilled⟩
      rw [LocalSearch.fillRows] at hrest ⊢
      rw [List.range'_succ, List.foldlM_cons]
      dsimp only
      rw [hrow, ok_bind, hwrite, ok_bind]
      exact hrest

/-- The rows of one more block are filled. -/
theorem Filled.fillBlock (ready : ls.Ready) (ha : a.Legal ls.graph.nodeCount ls.k)
    {done rest : List Partition} {p : Partition} (hl : ls.partitions = done ++ p :: rest)
    {state : Array α × Nat} (h : Filled ls a (done.flatMap Partition.nodes).length state) :
    ∃ state', ls.fillBlock a state p = .ok state' ∧
      Filled ls a ((done ++ [p]).flatMap Partition.nodes).length state' := by
  obtain ⟨hle, hnodes⟩ := ready.block_eq hl
  obtain ⟨state', hfill, hfilled⟩ := h.fillRows ready ha hle
  have hsize : 0 < p.size :=
    ready.size_pos p (hl ▸ List.mem_append_right _ List.mem_cons_self)
  have hk : 0 < ls.k := Nat.zero_lt_of_lt (ha.community_lt (v := 0) (by omega))
  -- The cells of the block have not been handed out before.
  have hfits : ¬ state.1.size < state.2 + p.size * ls.k := by
    rw [h.size_eq, h.base_eq, ← Nat.add_mul, Nat.not_lt]
    exact Nat.mul_le_mul_right _ hle
  refine ⟨state', ?_, ?_⟩
  · rw [LocalSearch.fillBlock, if_neg hfits, if_neg (by omega), hnodes, hfill]
  · rw [List.flatMap_append, List.flatMap_singleton, List.length_append, Partition.length_nodes]
    exact hfilled

/-- **The first phase fills the whole table**, whatever it held before. -/
theorem affinities_rows (ready : ls.Ready) (ha : a.Legal ls.graph.nodeCount ls.k)
    {table : Array α} (htable : table.size = ls.graph.nodeCount * ls.k) :
    ∃ table', ls.affinities a table = .ok table' ∧
      table'.size = ls.graph.nodeCount * ls.k ∧
      ∀ {v c : Nat} {row : Array α}, v < ls.graph.nodeCount → c < ls.k →
        ls.affinityRow a v = .ok row → table'[v * ls.k + c]? = row[c]? := by
  have hstart : Filled ls a 0 (table, 0) :=
    ⟨htable, (Nat.zero_mul _).symm, fun hv => absurd hv (Nat.not_lt_zero _)⟩
  obtain ⟨state, hfold, hfilled⟩ := foldlM_yields (f := ls.fillBlock a)
    (fun done state => Filled ls a (done.flatMap Partition.nodes).length state)
    (l := ls.partitions) hstart fun done p rest state hl hdone => hdone.fillBlock ready ha hl
  rw [ready.nodes_eq, List.length_range] at hfilled
  exact ⟨state.1, by rw [affinities, hfold]; rfl, hfilled.size_eq, hfilled.row_eq⟩

end

/-! ### Exact weights -/

variable {ls : LocalSearch Rat} {a : Assignment} {v : Nat}

/-- With exact weights the order does not matter. -/
theorem sumToward_eq (a : Assignment) (v c : Nat) (arcs : List (Arc Rat)) :
    sumToward a v c arcs = (arcs.map fun x : Arc Rat =>
      if x.target ≠ v ∧ a.community x.target = c then x.weight else 0).sum := by
  rw [List.sum_map_ite, List.sum_map_zero, add_zero]
  exact List.sum_eq_foldl.symm

theorem weightTo_incidents (wf : ls.graph.WellFormed) (hv : v < ls.graph.nodeCount) {u : Nat}
    (hu : u < ls.graph.nodeCount) :
    Graph.weightTo (ls.graph.incidents v) u = ls.graph.link v u := by
  rw [Graph.weightTo, wf.incidents_between hv hu, List.sum_append, Graph.link]
  cases ls.graph.undirected with
  | true => rfl
  | false => rfl

/-- **A row holds the affinities of its node.** -/
theorem affinityRow_eq (ready : ls.Ready) (ha : a.Legal ls.graph.nodeCount ls.k)
    (hv : v < ls.graph.nodeCount) :
    ∃ row, ls.affinityRow a v = .ok row ∧ row.size = ls.k ∧
      ∀ c < ls.k, row[c]? = some (ls.graph.affinity a v c) := by
  have hlt := ready.graph.incidents_lt hv
  obtain ⟨row, hfill, hsize, hrow⟩ := affinityRow_sums ready ha hv
  refine ⟨row, hfill, hsize, fun c hc => ?_⟩
  rw [hrow c hc, sumToward_eq, Graph.sum_weights_eq hlt fun u => u ≠ v ∧ a.community u = c,
    ← Finset.add_sum_erase _ _ (Finset.mem_range.2 hv), if_neg fun h => h.1 rfl, zero_add,
    Graph.affinity]
  refine congrArg some (Finset.sum_congr rfl fun u hu => ?_)
  obtain ⟨huv, hun⟩ := Finset.mem_erase.1 hu
  rw [weightTo_incidents ready.graph hv (Finset.mem_range.1 hun)]
  exact if_congr (and_iff_right huv) rfl rfl

/-- The table holds the affinities for an assignment. -/
structure Tabulates (ls : LocalSearch Rat) (table : Array Rat) (a : Assignment) : Prop where
  size_eq : table.size = ls.graph.nodeCount * ls.k
  entry_eq : ∀ {v c : Nat}, v < ls.graph.nodeCount → c < ls.k →
    ls.entry table v c = ls.graph.affinity a v c

/-- **The first phase computes the affinities**, whatever the table held before. -/
theorem affinities_eq (ready : ls.Ready) (ha : a.Legal ls.graph.nodeCount ls.k)
    {table : Array Rat} (htable : table.size = ls.graph.nodeCount * ls.k) :
    ∃ table', ls.affinities a table = .ok table' ∧ Tabulates ls table' a := by
  obtain ⟨table', hfill, hsize, hcells⟩ := affinities_rows ready ha htable
  refine ⟨table', hfill, hsize, fun hv hc => ?_⟩
  obtain ⟨row, hrow, -, hentries⟩ := affinityRow_eq ready ha hv
  rw [entry, Array.getD_eq_getD_getElem?, hcells hv hc hrow, hentries _ hc, Option.getD_some]

end KCut.LocalSearch
