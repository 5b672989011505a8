import Mathlib.Algebra.Order.BigOperators.Group.Finset
import KCut.Arena
import KCut.Proofs.LocalSearch.Round

/-!
# KCut.Proofs.LocalSearch.Stable

Assignments that no single move improves.

A round that moves nothing has found no node that may move, and all it has looked
at is the assignment that it leaves behind: so that assignment is `Stable`
(`RoundOf.stable`). What runs keep from one search to the next are slots, and of
those `KeepsStable` says that no step has spoilt a stable one. Where communities have
no minimums, a stable assignment cuts its share of all weights, since no node is better
off in its own community than in an average one (`Stable.not_better_share`).
-/

namespace KCut

open Finset (range)

/-- Sums of which no term is better. -/
theorem Objective.not_better_sum (o : Objective) {f g : Nat → Rat} {s : Finset Nat}
    (h : ∀ i ∈ s, ¬ o.better (f i) (g i) = true) :
    ¬ o.better (∑ i ∈ s, f i) (∑ i ∈ s, g i) = true := by
  cases o with
  | maximize =>
      simp only [better_maximize, Weight.less_rat, decide_eq_true_eq, not_lt] at h ⊢
      exact Finset.sum_le_sum h
  | minimize =>
      simp only [better_minimize, Weight.less_rat, decide_eq_true_eq, not_lt] at h ⊢
      exact Finset.sum_le_sum h

/-- The assignment and the cost cell of a candidate. -/
def Candidate.slot (c : Candidate Rat) : Slot Rat :=
  ⟨c.assignment, c.cost⟩

namespace LocalSearch

variable {ls : LocalSearch Rat} {a : Assignment} {v c : Nat}

/-- A move of one node to another community is no better than none, unless its own
community has no node to spare. -/
def Stable (ls : LocalSearch Rat) (a : Assignment) : Prop :=
  ∀ v < ls.graph.nodeCount, ∀ c < ls.k, c ≠ a.community v →
    ls.objective.better (ls.graph.affinity a v (a.community v)) (ls.graph.affinity a v c) = true →
      a.count (a.community v) ≤ ls.minSizes.getD (a.community v) 0

/-- What a slot holds is stable if it has been scored. -/
def StableSlot (ls : LocalSearch Rat) (slot : Slot Rat) : Prop :=
  slot.cost ≠ .worst → ls.Stable slot.assignment

/-- A stable slot stays stable over these answers to polls, unless one of them stops
the run. -/
def KeepsStable (ls : LocalSearch Rat) (polls : List Bool) (slot slot' : Slot Rat) : Prop :=
  true ∉ polls → ls.StableSlot slot → ls.StableSlot slot'

namespace KeepsStable

variable {polls more : List Bool} {slot slot' slot'' : Slot Rat}

theorem refl (polls : List Bool) (slot : Slot Rat) : ls.KeepsStable polls slot slot :=
  fun _ hslot => hslot

theorem trans (h : ls.KeepsStable polls slot slot') (h' : ls.KeepsStable more slot' slot'') :
    ls.KeepsStable (polls ++ more) slot slot'' := by
  intro hrunning hslot
  simp only [List.mem_append, not_or] at hrunning
  exact h' hrunning.2 (h hrunning.1 hslot)

end KeepsStable

/-- A move of one node, judged by the cut. -/
theorem better_setIfInBounds_iff (wf : ls.graph.WellFormed) (ha : a.size = ls.graph.nodeCount)
    (hv : v < ls.graph.nodeCount) :
    ls.objective.better (ls.graph.cut (a.setIfInBounds v c)) (ls.graph.cut a) =
      ls.objective.better (ls.graph.affinity a v (a.community v)) (ls.graph.affinity a v c) := by
  rw [Graph.cut_setIfInBounds wf ha hv, Objective.better_add_self, Objective.better_sub]

/-- **A stable assignment above its minimums is a local optimum**: a move of one node
is no better than none, or the community that the node leaves is at its minimum. -/
theorem Stable.not_better_move (h : ls.Stable a) (wf : ls.graph.WellFormed)
    (ha : a.Legal ls.graph.nodeCount ls.k) (hfills : a.Fills ls.minSizes ls.k)
    (hv : v < ls.graph.nodeCount) (hc : c < ls.k) (hne : c ≠ a.community v) :
    ¬ ls.objective.better (ls.graph.cut (a.setIfInBounds v c)) (ls.graph.cut a) = true ∨
      a.count (a.community v) = ls.minSizes.getD (a.community v) 0 := by
  rw [better_setIfInBounds_iff wf ha.size_eq hv]
  by_cases hbetter : ls.objective.better (ls.graph.affinity a v (a.community v))
      (ls.graph.affinity a v c) = true
  · have hmost := h v hv c hc hne hbetter
    have hleast := hfills _ (ha.community_lt hv)
    exact Or.inr (Nat.le_antisymm hmost hleast)
  · exact Or.inl hbetter

/-! ### Rounds without a move -/

/-- **A round without a move leaves a stable assignment.** -/
theorem RoundOf.stable {order : List Partition} {p p' : Progress Rat} (ready : ls.Ready)
    (h : RoundOf ls order p p') (hchanged : p'.changed = false) : ls.Stable p'.assignment := by
  have hassignment := h.assignment_eq_of_not_changed ready hchanged
  have hsettled := h.settled_of_not_changed ready hchanged
  rw [hassignment] at hsettled ⊢
  intro v hv c hc hne hbetter
  apply hsettled v hv c hc hne
  rw [moveGain, h.tabulates.entry_eq hv (h.start.legal.community_lt hv),
    h.tabulates.entry_eq hv hc, Objective.better_sub]
  exact hbetter

/-! ### The share of a stable assignment -/

/-- Without minimums no move is better than none. -/
theorem Stable.not_better_affinity (h : ls.Stable a) (ha : a.Legal ls.graph.nodeCount ls.k)
    (hmin : ∀ c < ls.k, ls.minSizes.getD c 0 = 0) (hv : v < ls.graph.nodeCount) (hc : c < ls.k)
    (hne : c ≠ a.community v) :
    ¬ ls.objective.better (ls.graph.affinity a v (a.community v)) (ls.graph.affinity a v c) =
      true := by
  intro hbetter
  have hleast := h v hv c hc hne hbetter
  rw [hmin _ (ha.community_lt hv)] at hleast
  have hmember := Tally.count_community_pos (ha.size_eq ▸ hv)
  omega

/-- A node whose community can always spare it is no better off there than in an
average community. -/
theorem Stable.not_better_average (h : ls.Stable a) (ha : a.Legal ls.graph.nodeCount ls.k)
    (hmin : ∀ c < ls.k, ls.minSizes.getD c 0 = 0) (hv : v < ls.graph.nodeCount) :
    ¬ ls.objective.better (ls.k * ls.graph.affinity a v (a.community v))
      (∑ u ∈ (range ls.graph.nodeCount).erase v, ls.graph.link v u) = true := by
  have hcopies : (ls.k : Rat) * ls.graph.affinity a v (a.community v) =
      ∑ c ∈ range ls.k, ls.graph.affinity a v (a.community v) := by simp
  rw [hcopies, ← Graph.sum_affinity ha]
  apply Objective.not_better_sum
  intro c hc
  by_cases hsame : c = a.community v
  · rw [hsame]
    exact ls.objective.not_better_self _
  · exact h.not_better_affinity ha hmin hv (Finset.mem_range.1 hc) hsame

/-- **A stable assignment cuts its share**: of all weights between two nodes, `k - 1`
parts out of `k`. -/
theorem Stable.not_better_share (h : ls.Stable a) (ha : a.Legal ls.graph.nodeCount ls.k)
    (hmin : ∀ c < ls.k, ls.minSizes.getD c 0 = 0) :
    ¬ ls.objective.better
      (((ls.k : Rat) - 1) * ((∑ v ∈ range ls.graph.nodeCount,
        ∑ u ∈ (range ls.graph.nodeCount).erase v, ls.graph.link v u) / 2))
      (ls.k * ls.graph.cut a) = true := by
  have hnodes := ls.objective.not_better_sum (s := range ls.graph.nodeCount)
    fun v hv => h.not_better_average ha hmin (Finset.mem_range.1 hv)
  rw [← Finset.mul_sum] at hnodes
  rw [Graph.cut_eq_sum_sub, Finset.sum_sub_distrib]
  cases hobjective : ls.objective with
  | maximize =>
      simp only [hobjective, Objective.better_maximize, Weight.less_rat, decide_eq_true_eq,
        not_lt] at hnodes ⊢
      linarith
  | minimize =>
      simp only [hobjective, Objective.better_minimize, Weight.less_rat, decide_eq_true_eq,
        not_lt] at hnodes ⊢
      linarith

end LocalSearch

end KCut
