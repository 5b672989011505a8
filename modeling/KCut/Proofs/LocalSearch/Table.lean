import Mathlib.Algebra.Field.Rat
import KCut.Proofs.Graph.Transpose
import KCut.Proofs.LocalSearch.Affinity

/-!
# KCut.Proofs.LocalSearch.Table

The table of affinities, cell by cell.

`Graph.affinityTable` says what the first phase of a round has to compute, in terms of what is
around each node and of nothing else: no blocks, no former content and no minimums. So all
searches on a graph compute the same table, bit by bit. With exact weights a row distributes the
weight around its node among the communities (`sum_sumToward`).
-/

namespace KCut

namespace Graph

variable {α : Type} [Weight α]

/-- The ordered sums of all nodes, row after row, with `k` cells to a row. -/
def affinityTable (g : Graph α) (k : Nat) (a : Assignment) : Array α :=
  Array.ofFn (n := g.nodeCount * k) fun i =>
    LocalSearch.sumToward a (i / k) (i % k) (g.around (i / k))

theorem size_affinityTable (g : Graph α) (k : Nat) (a : Assignment) :
    (g.affinityTable k a).size = g.nodeCount * k := by
  rw [affinityTable, Array.size_ofFn]

theorem affinityTable_cell (g : Graph α) {k : Nat} (a : Assignment) {v c : Nat}
    (hv : v < g.nodeCount) (hc : c < k) :
    (g.affinityTable k a)[v * k + c]? = some (LocalSearch.sumToward a v c (g.around v)) := by
  have hk : 0 < k := Nat.zero_lt_of_lt hc
  have hrow : (v * k + c) / k = v := by
    rw [Nat.mul_comm, Nat.mul_add_div hk, Nat.div_eq_of_lt hc, Nat.add_zero]
  have hcolumn : (v * k + c) % k = c := by
    rw [Nat.mul_add_mod_of_lt hc]
  have hcell : v * k + c < g.nodeCount * k := by
    rw [← Nat.div_lt_iff_lt_mul hk, hrow]
    exact hv
  rw [affinityTable, Array.getElem?_ofFn, dif_pos hcell, hrow, hcolumn]

end Graph

namespace LocalSearch

/-- With exact weights each relationship with another node adds to the cell of one community. -/
theorem sum_sumToward {a : Assignment} {k v : Nat} {arcs : List (Arc Rat)}
    (harcs : ∀ x ∈ arcs, a.community x.target < k) :
    ∑ c ∈ Finset.range k, sumToward a v c arcs =
      ((arcs.filter (·.target ≠ v)).map (·.weight)).sum := by
  simp only [sumToward_eq]
  induction arcs with
  | nil => simp
  | cons x rest ih =>
      have hx : a.community x.target ∈ Finset.range k :=
        Finset.mem_range.2 (harcs x List.mem_cons_self)
      have hrest := ih fun y hy => harcs y (List.mem_cons_of_mem _ hy)
      have hcell : ∑ c ∈ Finset.range k,
          (if x.target ≠ v ∧ a.community x.target = c then x.weight else 0) =
            if x.target ≠ v then x.weight else 0 := by
        simp only [ite_and]
        rw [Finset.sum_ite_irrel, Finset.sum_ite_eq, if_pos hx, Finset.sum_const_zero]
      simp only [List.map_cons, List.sum_cons]
      rw [Finset.sum_add_distrib, hcell, hrest, List.filter_cons]
      by_cases hloop : x.target = v
      · simp [hloop]
      · simp [hloop]

/-- The first phase computes this table, whatever it held before. -/
theorem affinities_eq_affinityTable {α : Type} [Weight α] {ls : LocalSearch α} (ready : ls.Ready)
    {l : EdgeList α} (hbuild : l.build = .ok ls.graph) {a : Assignment}
    (ha : a.Legal ls.graph.nodeCount ls.k) {former : Array α}
    (hformer : former.size = ls.graph.nodeCount * ls.k) :
    ls.affinities a former = .ok (ls.graph.affinityTable ls.k a) := by
  obtain ⟨table, hfill, hsize, hcells⟩ := affinities_rows ready ha hformer
  rw [hfill]
  refine congrArg Except.ok
    (ext_rows hsize (ls.graph.size_affinityTable ls.k a) fun v hv c hc => ?_)
  obtain ⟨row, hrow, -, hsums⟩ := affinityRow_sums ready ha hv
  rw [hcells hv hc hrow, hsums c hc, ls.graph.affinityTable_cell a hv hc,
    EdgeList.incidents_eq_around hbuild hv]

/-- **The first phase computes the table of the ordered sums**, in whatever blocks and whatever
the table held before. With exact weights the sum of a row is the weight of what is around its
node, loops apart. -/
theorem affinities_fill_table :
    (∀ {α : Type} [Weight α] {l : EdgeList α} {g : Graph α}, l.build = .ok g →
      g.nodeCount < Tally.modulus → ∀ {k : Nat} {a : Assignment}, a.Legal g.nodeCount k →
        (∀ (objective : Objective) (minSizes : Array Nat) (concurrency minBatch : Nat)
          {former : Array α}, former.size = g.nodeCount * k →
          (LocalSearch.new g objective k minSizes concurrency minBatch).affinities a former =
            .ok (g.affinityTable k a)) ∧
        (g.affinityTable k a).size = g.nodeCount * k ∧
        ∀ v < g.nodeCount, ∀ c < k,
          (g.affinityTable k a)[v * k + c]? = some (sumToward a v c (g.around v))) ∧
    ∀ {l : EdgeList Rat} {g : Graph Rat}, l.build = .ok g →
      ∀ {k : Nat} {a : Assignment}, a.Legal g.nodeCount k → ∀ v < g.nodeCount,
        ∑ c ∈ Finset.range k, (g.affinityTable k a).getD (v * k + c) 0 =
          (((g.around v).filter (·.target ≠ v)).map (·.weight)).sum := by
  refine ⟨?_, ?_⟩
  · intro α _ l g hbuild hword k a ha
    refine ⟨fun objective minSizes concurrency minBatch former hformer => ?_,
      g.size_affinityTable k a, fun v hv c hc => g.affinityTable_cell a hv hc⟩
    -- The phase does not read the minimums, so any others will do.
    have ready := ready_new (EdgeList.wellFormed_of_build hbuild) hword objective
      (Array.size_replicate : (Array.replicate k 0).size = k) concurrency minBatch
    exact affinities_eq_affinityTable ready hbuild ha hformer
  · intro l g hbuild k a ha v hv
    have harcs : ∀ x ∈ g.around v, a.community x.target < k := by
      intro x hx
      rw [← EdgeList.incidents_eq_around hbuild hv] at hx
      exact ha.community_lt ((EdgeList.wellFormed_of_build hbuild).incidents_lt hv x hx)
    rw [← sum_sumToward harcs]
    refine Finset.sum_congr rfl fun c hc => ?_
    rw [Array.getD_eq_getD_getElem?, g.affinityTable_cell a hv (Finset.mem_range.1 hc),
      Option.getD_some]

/-- The directed triangle, in one block over a table that is not new and in two blocks: what
leaves node 0 and what enters it add to one cell, and the loop adds to none. -/
theorem affinities_triangle :
    let g : Graph Rat := (EdgeList.triangle false).toGraph
    (LocalSearch.new g .maximize 2 #[] 1 5).affinities #[0, 1, 1] #[7, 7, 7, 7, 7, 7] =
        .ok #[0, 4, 3, -1, 1, -1] ∧
      (LocalSearch.new g .minimize 2 #[1, 1] 3 1).affinities #[0, 1, 1] (Array.replicate 6 0) =
        .ok #[0, 4, 3, -1, 1, -1] ∧
      ∑ c ∈ Finset.range 2, (g.affinityTable 2 #[0, 1, 1]).getD (2 * 2 + c) 0 = 0 := by
  intro g
  have hbuild := EdgeList.build_triangle false
  have hlegal : Assignment.Legal #[0, 1, 1] g.nodeCount 2 := by decide
  have htable : g.affinityTable 2 #[0, 1, 1] = #[0, 4, 3, -1, 1, -1] := by decide +kernel
  have haround : (((g.around 2).filter (·.target ≠ 2)).map (·.weight)).sum = 0 := by
    decide +kernel
  obtain ⟨hfill, -, -⟩ := affinities_fill_table.1 hbuild (by decide) hlegal
  refine ⟨?_, ?_, ?_⟩
  · rw [hfill .maximize #[] 1 5 (by decide), htable]
  · rw [hfill .minimize #[1, 1] 3 1 (by decide), htable]
  · rw [affinities_fill_table.2 hbuild hlegal 2 (by decide), haround]

end LocalSearch

end KCut
