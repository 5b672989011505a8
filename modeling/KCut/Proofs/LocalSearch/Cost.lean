import Mathlib.Algebra.Field.Rat
import KCut.LocalSearch.Converge
import KCut.Proofs.Graph.Cut
import KCut.Proofs.LocalSearch.Ready

/-!
# KCut.Proofs.LocalSearch.Cost

The cost of a search is the weight of the cut.

Every assignment of the nodes has a cost, whatever the weights are (`costIn_total`). For
exact ones it is the weight of the cut: the blocks of a search are a cover, so their
shares add up to what is stored at all nodes, in whatever order the blocks are summed
(`costIn_eq`).
-/

namespace KCut.LocalSearch

open Finset (range)

section

variable {α : Type} [Weight α] {ls : LocalSearch α} {a : Assignment}

/-- A fold of steps that always have a result has one. -/
theorem foldlM_total {σ β : Type} {f : σ → β → Except Fault σ} {l : List β}
    (h : ∀ s, ∀ x ∈ l, ∃ s', f s x = .ok s') (s : σ) : ∃ s', l.foldlM f s = .ok s' := by
  obtain ⟨s', hfold, -⟩ := foldlM_yields (f := f) (l := l) (s := s) (fun _ _ => True) trivial
    fun done x rest s hl _ => by
      obtain ⟨s', hx⟩ := h s x (by rw [hl]; exact List.mem_append_right _ List.mem_cons_self)
      exact ⟨s', hx, trivial⟩
  exact ⟨s', hfold⟩

theorem addCut_total (wf : ls.graph.WellFormed) (ha : a.size = ls.graph.nodeCount) {v : Nat}
    (hv : v < ls.graph.nodeCount) (sum : α) : ∃ sum', ls.addCut a sum v = .ok sum' := by
  rw [addCut, Assignment.get_eq (ha ▸ hv), ok_bind, wf.arcs_eq hv, ok_bind]
  refine foldlM_total (fun sum x hx => ?_) sum
  rw [Assignment.get_eq (ha ▸ wf.target_lt hv x hx)]
  exact ⟨_, rfl⟩

/-- **Every assignment of the nodes has a cost.** -/
theorem costIn_total (ready : ls.Ready) (ha : a.size = ls.graph.nodeCount)
    {order : List Partition} (horder : order.Perm ls.partitions) :
    ∃ cost, ls.costIn order a = .ok cost := by
  refine foldlM_total (fun sum p hp => ?_) 0
  have hnodes : ∀ v ∈ p.nodes, v < ls.graph.nodeCount := fun v hv =>
    ready.nodes_lt horder v (List.mem_flatMap.2 ⟨p, hp, hv⟩)
  obtain ⟨share, hshare⟩ :=
    foldlM_total (f := ls.addCut a)
      (fun sum v hv => addCut_total ready.graph ha (hnodes v hv) sum) 0
  rw [partitionCost, hshare]
  exact ⟨_, rfl⟩

end

/-! ### Exact weights -/

variable {ls : LocalSearch Rat} {a : Assignment}

theorem addCut_eq (wf : ls.graph.WellFormed) (ha : a.size = ls.graph.nodeCount) {v : Nat}
    (hv : v < ls.graph.nodeCount) (sum : Rat) :
    ls.addCut a sum v = .ok (sum + ls.graph.cutFrom a v) := by
  rw [addCut, Assignment.get_eq (ha ▸ hv), ok_bind, wf.arcs_eq hv, ok_bind]
  refine foldlM_add (fun x hx sum => ?_) sum
  rw [Assignment.get_eq (ha ▸ wf.target_lt hv x hx), ok_bind]
  by_cases hcut : a.community x.target = a.community v
  · rw [if_pos hcut, if_neg (not_not_intro hcut.symm), add_zero]
    rfl
  · rw [if_neg hcut, if_pos (Ne.symm hcut)]
    rfl

/-- The share of a block in the cost. -/
theorem partitionCost_eq (wf : ls.graph.WellFormed) (ha : a.size = ls.graph.nodeCount)
    {p : Partition} (hp : ∀ v ∈ p.nodes, v < ls.graph.nodeCount) :
    ls.partitionCost a p = .ok ((p.nodes.map (ls.graph.cutFrom a)).sum /
      if ls.graph.undirected then 2 else 1) := by
  rw [partitionCost, foldlM_add (fun v hv sum => addCut_eq wf ha (hp v hv) sum), ok_bind, zero_add]
  cases ls.graph.undirected with
  | true => simp
  | false => simp

/-- **The cost is the weight of the cut**, in whatever order the blocks are
summed. -/
theorem costIn_eq (wf : ls.graph.WellFormed) (ha : a.size = ls.graph.nodeCount)
    {order : List Partition}
    (horder : (order.flatMap Partition.nodes).Perm (List.range ls.graph.nodeCount)) :
    ls.costIn order a = .ok (ls.graph.cut a) := by
  have hblock : ∀ p ∈ order, ∀ v ∈ p.nodes, v < ls.graph.nodeCount := by
    intro p hp v hv
    exact List.mem_range.1 (horder.mem_iff.1 (List.mem_flatMap.2 ⟨p, hp, hv⟩))
  have hfold : ls.costIn order a = .ok (0 + (order.map fun p =>
      (p.nodes.map (ls.graph.cutFrom a)).sum / if ls.graph.undirected then 2 else 1).sum) := by
    refine foldlM_add (fun p hp sum => ?_) 0
    rw [partitionCost_eq wf ha (hblock p hp), ok_bind]
    rfl
  have hnodes : (order.map fun p => (p.nodes.map (ls.graph.cutFrom a)).sum).sum =
      ∑ v ∈ range ls.graph.nodeCount, ls.graph.cutFrom a v := by
    rw [← sum_map_range, ← (horder.map _).sum_eq, List.map_flatMap, List.flatMap_def,
      List.sum_flatten, List.map_map]
    rfl
  simp only [div_eq_mul_inv, List.sum_map_mul_right, hnodes] at hfold
  rw [hfold, zero_add, ← div_eq_mul_inv, Graph.sum_cutFrom wf a]

/-- **Scoring gives the weight of the cut**, and announces that it did. -/
theorem evaluateIn_eq (wf : ls.graph.WellFormed) (ha : a.size = ls.graph.nodeCount)
    {order : List Partition}
    (horder : (order.flatMap Partition.nodes).Perm (List.range ls.graph.nodeCount))
    (scope : Scope Rat) :
    ls.evaluateIn order a scope = .ok (.of (ls.graph.cut a), { scope with
      journal := (scope.journal.push (.task (.began .computeCost))).push
        (.task (.ended .computeCost)) }) := by
  have hcost := costIn_eq wf ha horder
  simp only [evaluateIn, hcost]
  rfl

end KCut.LocalSearch
