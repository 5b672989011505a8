import KCut.Proofs.Graph.Transpose

/-!
# KCut.Proofs.Graph.Sort

The counting sorts, access by access.

`Rows.sort` and `Graph.sortIncoming` check each access to a buffer. Neither of them makes one
outside, and both give the rows that are read off the list of items (`Rows.sort_eq_ofList`,
`Graph.sortIncoming_eq`). What the two share is the fill: an item is written into the slot under
the cursor of its row, which has room for it because the whole row was counted
(`Rows.Placing`). The sort by targets takes its totals in place, from the first cell to the
last (`Graph.Totalled`).
-/

namespace KCut

/-! ### Sorting a list -/

namespace Rows

variable {β : Type}

theorem foldlM_countKey {keys : List Nat} {counts : Array Nat}
    (h : ∀ key ∈ keys, key < counts.size) :
    keys.foldlM countKey counts =
      .ok (keys.foldl (fun counts key => counts.modify key (· + 1)) counts) := by
  induction keys generalizing counts with
  | nil => rfl
  | cons key keys ih =>
      obtain ⟨hkey, hkeys⟩ := List.forall_mem_cons.1 h
      rw [List.foldlM_cons, countKey, Buffer.update_eq_ok hkey, ok_bind, List.foldl_cons]
      exact ih (by simpa using hkeys)

/-- The keys of rows are counted. -/
theorem foldlM_countKey_eq {n : Nat} {keys : List Nat} (h : ∀ key ∈ keys, key < n) :
    keys.foldlM countKey (Array.replicate n 0) = .ok (countKeys n keys) :=
  foldlM_countKey (by simpa using h)

theorem foldlM_endRow {counts : List Nat} {offsets : Array Nat} {last : Nat}
    (hlast : offsets[offsets.size - 1]? = some last) :
    counts.foldlM endRow offsets = .ok (counts.foldl addTotal (offsets, last)).1 := by
  induction counts generalizing offsets last with
  | nil => rfl
  | cons count counts ih =>
      obtain ⟨hlt, hread⟩ := Array.getElem?_eq_some_iff.1 hlast
      rw [List.foldlM_cons, endRow, Checked.sub_eq_ok (by omega), ok_bind, Buffer.read_eq_ok hlt,
        hread, ok_bind, pure_eq_ok, ok_bind, List.foldl_cons]
      exact ih (by simp)

/-- The rows end where their offsets say. -/
theorem foldlM_endRow_eq (counts : Array Nat) :
    counts.toList.foldlM endRow #[0] = .ok (runningTotals counts) := by
  rw [runningTotals_eq]
  exact foldlM_endRow rfl

section

variable {n : Nat} {offsets : Array Nat} {blank : Array β} {entries done rest : List (Nat × β)}

/-- The items and cursors after `done` of the entries have been placed: each cursor stands behind
the items of its row. -/
structure Placing (n : Nat) (offsets : Array Nat) (blank : Array β)
    (entries done : List (Nat × β)) (state : Array β × Array Nat) : Prop where
  items_eq : state.1 = placed offsets blank done
  cursor_eq : ∀ v < n, state.2[v]? =
    some (rowStart (entries.map (·.1)) v + (done.map (·.1)).count v)

/-- **The next item has its slot inside its row.** -/
theorem Placing.step {state : Array β × Array Nat} (h : Placing n offsets blank entries done state)
    (hoffsets : ∀ v ≤ n, offsets[v]? = some (rowStart (entries.map (·.1)) v))
    (hblank : blank.size = rowStart (entries.map (·.1)) n) {key : Nat} {x : β}
    (hentries : entries = done ++ (key, x) :: rest) (hkey : key < n) :
    ∃ state', place state (key, x) = .ok state' ∧
      Placing n offsets blank entries (done ++ [(key, x)]) state' := by
  obtain ⟨items, cursors⟩ := state
  obtain ⟨rfl, hcursors⟩ := h
  dsimp only at hcursors
  obtain ⟨hlt, hslot⟩ := Array.getElem?_eq_some_iff.1 (hcursors key hkey)
  -- The row was counted with this item, so its slot lies before the next row.
  have hroom : (done.map (·.1)).count key < (entries.map (·.1)).count key := by
    rw [hentries, List.map_append, List.count_append, List.map_cons, List.count_cons_self]
    omega
  have hrow := rowStart_add_count_le (entries.map (·.1)) hkey
  have hinside : rowStart (entries.map (·.1)) key + (done.map (·.1)).count key <
      (placed offsets blank done).size := by
    rw [size_placed, hblank]
    omega
  refine ⟨(placed offsets blank (done ++ [(key, x)]), cursors.modify key (· + 1)), ?_, rfl, ?_⟩
  · rw [place, Buffer.read_eq_ok hlt, hslot, ok_bind, Buffer.write_eq_ok hinside,
      ok_bind, Buffer.update_eq_ok hlt, ok_bind, placed_concat blank done x (hoffsets key hkey.le)]
    rfl
  · intro v hv
    rw [Array.getElem?_modify, hcursors v hv, List.map_append, List.count_append]
    by_cases hkv : key = v
    · subst hkv
      simp [Nat.add_assoc]
    · simp [hkv]

/-- All items are placed. -/
theorem foldlM_place (hkeys : ∀ e ∈ entries, e.1 < n)
    (hoffsets : ∀ v ≤ n, offsets[v]? = some (rowStart (entries.map (·.1)) v))
    (hblank : blank.size = rowStart (entries.map (·.1)) n) {cursors : Array Nat}
    (hcursors : ∀ v < n, cursors[v]? = some (rowStart (entries.map (·.1)) v)) :
    ∃ cursors', entries.foldlM place (blank, cursors) =
      .ok (placed offsets blank entries, cursors') := by
  have hstart : Placing n offsets blank entries [] (blank, cursors) :=
    ⟨rfl, by simpa using hcursors⟩
  obtain ⟨⟨items, cursors'⟩, hfold, rfl, -⟩ := foldlM_yields
    (Placing n offsets blank entries) hstart fun done e rest state hentries h =>
      h.step hoffsets hblank hentries (hkeys e (by simp [hentries]))
  exact ⟨cursors', hfold⟩

end

variable [Inhabited β] {n : Nat} {entries : List (Nat × β)}

/-- The fill, from blank items to those of the rows. -/
theorem fill_eq_ofList (hkeys : ∀ e ∈ entries, e.1 < n) :
    ∃ start cursors, blankItems n (ofList n entries).offsets = .ok start ∧
      entries.foldlM place start = .ok ((ofList n entries).items, cursors) := by
  have hsize : n < (ofList n entries).offsets.size := by
    rw [size_offsets_ofList]
    omega
  have hoffsets : ∀ v ≤ n, (ofList n entries).offsets[v]? =
      some (rowStart (entries.map (·.1)) v) := fun v hv => offsets_ofList_getElem? hv
  have hblank : (Array.replicate ((ofList n entries).offsets.getD n 0) (default : β)).size =
      rowStart (entries.map (·.1)) n := by
    rw [Array.size_replicate, offsets_ofList_getD (Nat.le_refl n)]
  have hcursors : ∀ v < n, ((ofList n entries).offsets.extract 0 n)[v]? =
      some (rowStart (entries.map (·.1)) v) := by
    intro v hv
    rw [Array.getElem?_extract, if_pos (by omega), Nat.zero_add, hoffsets v hv.le]
  obtain ⟨cursors, hfold⟩ := foldlM_place hkeys hoffsets hblank hcursors
  refine ⟨_, cursors, ?_, hfold⟩
  rw [blankItems, Buffer.read_eq_getD hsize 0, ok_bind,
    Buffer.slice_eq_ok (Nat.zero_le n) hsize.le, ok_bind]
  rfl

/-- **No access of the sort is out of range**, and it gives the rows of the list. -/
theorem sort_eq_ofList (hkeys : ∀ e ∈ entries, e.1 < n) : sort n entries = .ok (ofList n entries) := by
  have hkeys' : ∀ key ∈ entries.map (·.1), key < n := by simpa using hkeys
  obtain ⟨start, cursors, hblank, hfold⟩ := fill_eq_ofList hkeys
  rw [sort, foldlM_countKey_eq hkeys', ok_bind, foldlM_endRow_eq, ok_bind]
  have hoffsets : runningTotals (countKeys n (entries.map (·.1))) = (ofList n entries).offsets := rfl
  rw [hoffsets, hblank, ok_bind, hfold]
  rfl

end Rows

/-- **An edge list is stored without an access out of range**, if it is one that is built. -/
theorem EdgeList.store_of_build {α : Type} [Weight α] {l : EdgeList α} {g : Graph α}
    (h : l.build = .ok g) : l.store = .ok g := by
  obtain ⟨hnone, rfl⟩ := (build_eq_ok_iff l g).1 h
  rw [store, Rows.sort_eq_ofList fun e he => (stored_lt hnone e he).1]
  rfl

/-! ### Sorting by targets -/

namespace Graph

/-- Totals in place: the cells that have been passed hold where the rows start, and each cell
behind them how many items the row before it has. -/
structure Totalled (n : Nat) (keys : List Nat) (passed : Nat) (cells : Array Nat) : Prop where
  size_eq : cells.size = n + 1
  cell_eq : ∀ v ≤ n, cells[v]? =
    some (if v ≤ passed then Rows.rowStart keys v else keys.count (v - 1))

namespace Totalled

variable {n passed : Nat} {keys : List Nat} {cells : Array Nat}

/-- One more total. -/
theorem step (h : Totalled n keys passed cells) (hlt : passed < n) :
    ∃ cells', addTotalTo cells passed = .ok cells' ∧ Totalled n keys (passed + 1) cells' := by
  have hread : Buffer.read cells passed = .ok (Rows.rowStart keys passed) := by
    rw [Buffer.read, h.cell_eq passed hlt.le, if_pos (Nat.le_refl _)]
  have hnext : passed + 1 < cells.size := by
    rw [h.size_eq]
    omega
  refine ⟨_, by rw [addTotalTo, hread, ok_bind, Buffer.update_eq_ok hnext],
    by rw [Array.size_modify, h.size_eq], fun v hv => ?_⟩
  rw [Array.getElem?_modify, h.cell_eq v hv]
  rcases Nat.lt_trichotomy v (passed + 1) with hbefore | rfl | hbehind
  · rw [if_neg (by omega), if_pos (by omega), if_pos (by omega)]
  · rw [if_pos rfl, if_neg (by omega), if_pos (Nat.le_refl _), Rows.rowStart_succ,
      Option.map_some, Nat.add_sub_cancel, Nat.add_comm]
  · rw [if_neg (by omega), if_neg (by omega), if_neg (by omega)]

/-- The totals up to a node. -/
theorem foldlM_range (h : Totalled n keys 0 cells) (hle : passed ≤ n) :
    ∃ cells', (List.range passed).foldlM addTotalTo cells = .ok cells' ∧
      Totalled n keys passed cells' := by
  induction passed with
  | zero => exact ⟨cells, rfl, h⟩
  | succ passed ih =>
      obtain ⟨cells₁, hbefore, h₁⟩ := ih (by omega)
      obtain ⟨cells₂, hlast, h₂⟩ := h₁.step hle
      refine ⟨cells₂, ?_, h₂⟩
      rw [List.range_succ, List.foldlM_append, hbefore, ok_bind, List.foldlM_cons, hlast]
      rfl

end Totalled

variable {α : Type}

/-- A checked visitor that never asks to stop goes through the whole list. -/
theorem foldWhile_checked {σ β : Type} (visitor : σ → β → Except Fault σ) (visits : List β)
    (start : Except Fault σ) :
    foldWhile (fun s visit => (s >>= (visitor · visit), true)) start visits =
      start >>= (visits.foldlM visitor ·) := by
  induction visits generalizing start with
  | nil => cases start <;> rfl
  | cons visit visits ih =>
      refine (ih _).trans ?_
      cases start <;> rfl

theorem traverseAll_eq {σ : Type} {g : Graph α} {fallback : α} {v : Nat}
    {visits : List (Nat × Nat × α)} (h : g.visits fallback v = .ok visits)
    (visitor : σ → Nat × Nat × α → Except Fault σ) (start : σ) :
    g.traverseAll fallback v visitor start = visits.foldlM visitor start := by
  rw [traverseAll, traverse, h, ok_bind, pure_eq_ok, ok_bind, foldWhile_checked, ok_bind]

variable [Weight α]

/-- What a traversal of node `v` visits; zeros stand for the weights that a graph without weights
does not have. -/
def nodeVisits (g : Graph α) (v : Nat) : List (Nat × Nat × α) :=
  (g.outgoing.row v).map fun a => (v, a.target, if g.weighted then a.weight else 0)

/-- What a traversal of all nodes visits. -/
def allVisits (g : Graph α) : List (Nat × Nat × α) :=
  (List.range g.nodeCount).flatMap g.nodeVisits

theorem map_target_allVisits (g : Graph α) : g.allVisits.map (·.2.1) = g.allTargets := by
  rw [allVisits, allTargets, List.map_flatMap]
  refine List.flatMap_congr fun v _ => ?_
  rw [nodeVisits, leaving, List.map_map, List.map_map]
  rfl

section

variable {l : EdgeList α} {g : Graph α} (h : l.build = .ok g)

include h

/-- Traversing one node after another is visiting everything. -/
theorem foldlM_traverseAll {σ : Type} (visitor : σ → Nat × Nat × α → Except Fault σ) (start : σ) :
    (List.range g.nodeCount).foldlM (fun s v => g.traverseAll 0 v visitor s) start =
      g.allVisits.foldlM visitor start := by
  have hnode : ∀ v ∈ List.range g.nodeCount, ∀ s : σ,
      g.traverseAll 0 v visitor s = (g.nodeVisits v).foldlM visitor s := by
    intro v hv
    refine traverseAll_eq ?_ visitor
    rw [visits, (EdgeList.wellFormed_of_build h).arcs_eq (List.mem_range.1 hv)]
    rfl
  rw [foldlM_congr hnode, foldlM_flatMap, allVisits]

theorem allTargets_lt : ∀ target ∈ g.allTargets, target < g.nodeCount := by
  intro target htarget
  rw [← map_fst_reversed] at htarget
  obtain ⟨e, he, rfl⟩ := List.mem_map.1 htarget
  exact (EdgeList.wellFormed_of_build h).reversed_lt e he

/-- The relationships are counted behind their targets. -/
theorem foldlM_countEntering :
    ∃ counts, g.allVisits.foldlM countEntering (Array.replicate (g.nodeCount + 1) 0) = .ok counts ∧
      Totalled g.nodeCount g.allTargets 0 counts := by
  have hkeys : ∀ key ∈ g.allTargets.map (· + 1), key < g.nodeCount + 1 := by
    intro key hkey
    obtain ⟨target, htarget, rfl⟩ := List.mem_map.1 hkey
    exact Nat.succ_lt_succ (allTargets_lt h target htarget)
  have hmap : g.allVisits.foldlM countEntering (Array.replicate (g.nodeCount + 1) 0) =
      (g.allTargets.map (· + 1)).foldlM Rows.countKey (Array.replicate (g.nodeCount + 1) 0) := by
    rw [← map_target_allVisits, List.map_map, List.foldlM_map]
    rfl
  refine ⟨_, hmap.trans (Rows.foldlM_countKey_eq hkeys), Rows.size_countKeys _ _, fun v hv => ?_⟩
  rw [Rows.countKeys_getElem? _ (Nat.lt_succ_of_le hv)]
  cases v with
  | zero => rw [if_pos (Nat.le_refl 0), Rows.rowStart_zero, List.count_eq_zero.2 (by simp)]
  | succ v =>
      rw [if_neg (Nat.not_succ_le_zero v), Nat.add_sub_cancel,
        List.count_map_of_injective _ _ (fun _ _ heq => Nat.succ.inj heq)]

/-- **The totals in place are the offsets.** -/
theorem enteringOffsets_eq : g.enteringOffsets = .ok g.incoming.offsets := by
  obtain ⟨counts, hcounts, hcounted⟩ := foldlM_countEntering h
  obtain ⟨offsets, hoffsets, hsize, hcells⟩ := hcounted.foldlM_range (Nat.le_refl g.nodeCount)
  have hsame : offsets = g.incoming.offsets := by
    refine Array.ext_getElem? fun v => ?_
    rcases Nat.lt_or_ge g.nodeCount v with hgt | hle
    · rw [Array.getElem?_eq_none (by omega),
        Array.getElem?_eq_none (by rw [incoming, Rows.size_offsets_ofList]; omega)]
    · rw [hcells v hle, if_pos hle, incoming, Rows.offsets_ofList_getElem? hle, map_fst_reversed]
  rw [enteringOffsets, foldlM_traverseAll h, hcounts, ok_bind, hoffsets, hsame]

/-- The relationships as they are visited, keyed by their targets. -/
theorem reversed_eq_map_allVisits : g.reversed = g.allVisits.map fun visit =>
    (visit.2.1, ⟨visit.1, if g.weighted then visit.2.2 else 1⟩) := by
  rw [reversed, allVisits, List.map_flatMap]
  refine List.flatMap_congr fun v hv => ?_
  rw [nodeVisits, ← EdgeList.leaving_eq_row h (List.mem_range.1 hv), List.map_map]
  refine List.map_congr_left fun a ha => ?_
  obtain ⟨b, -, rfl⟩ := List.mem_map.1 ha
  simp only [Function.comp_apply]
  split <;> rfl

/-- **No access of the sort by targets is out of range**, and it gives the reverse adjacency. -/
theorem sortIncoming_eq : g.sortIncoming = .ok g.incoming := by
  obtain ⟨start, cursors, hblank, hfold⟩ :=
    Rows.fill_eq_ofList (EdgeList.wellFormed_of_build h).reversed_lt
  rw [← incoming] at hblank hfold
  have hplace : g.allVisits.foldlM g.placeEntering start = g.reversed.foldlM Rows.place start := by
    rw [reversed_eq_map_allVisits h, List.foldlM_map]
    rfl
  rw [sortIncoming, enteringOffsets_eq h, ok_bind, hblank, ok_bind, foldlM_traverseAll h, hplace,
    hfold]
  rfl

end

end Graph

/-! ### Searches -/

/-- **A search is set up without an access out of range**, and it is the one that runs use. -/
theorem LocalSearch.setUp_eq_new {α : Type} [Weight α] {l : EdgeList α} {g : Graph α}
    (h : l.build = .ok g) {k : Nat} (hcells : g.nodeCount * k < Checked.bound)
    (objective : Objective) (minSizes : Array Nat) (concurrency minBatch : Nat) :
    setUp g objective k minSizes concurrency minBatch =
      .ok (new g objective k minSizes concurrency minBatch) := by
  have hdegrees : (List.range g.nodeCount).mapM g.degree = .ok g.degrees :=
    mapM_eq_ok fun v hv => (EdgeList.wellFormed_of_build h).degree_eq (List.mem_range.1 hv)
  rw [setUp, hdegrees, ok_bind, Checked.mul_eq_ok hcells, ok_bind, Graph.sortIncoming_eq h, new]
  cases g.undirected <;> rfl

end KCut
