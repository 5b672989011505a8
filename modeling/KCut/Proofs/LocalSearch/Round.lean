import Mathlib.Algebra.Field.Rat
import Mathlib.Tactic.Linarith
import KCut.Proofs.LocalSearch.Gain
import KCut.Proofs.LocalSearch.Sweep

/-!
# KCut.Proofs.LocalSearch.Round

What one round of a local search does to the cut, if the weights are exact.

`RoundOf` is a round whose table holds the affinities of the graph. A round with a
move makes the cut strictly better, since each of its moves has a gain that is
better than none (`RoundOf.better`).
-/

namespace KCut

namespace Objective

/-! ### Gains that are better than none -/

variable (o : Objective)

theorem better_add_self {x y : Rat} : o.better (x + y) x = o.better y 0 := by
  cases o with
  | maximize => simp
  | minimize => simp

theorem better_sub {x y : Rat} : o.better (x - y) 0 = o.better x y := by
  cases o with
  | maximize => simp
  | minimize => simp

/-- Gains that are better than none add up to one that is. -/
theorem better_sum {gains : List Rat} (h : ∀ x ∈ gains, o.better x 0 = true) (hne : gains ≠ []) :
    o.better gains.sum 0 = true := by
  induction gains with
  | nil => exact absurd rfl hne
  | cons x rest ih =>
      have hx := h x List.mem_cons_self
      rw [List.sum_cons]
      by_cases hrest : rest = []
      · rw [hrest, List.sum_nil, add_zero]
        exact hx
      · have hsum := ih (fun y hy => h y (List.mem_cons_of_mem x hy)) hrest
        have hstep : o.better (x + rest.sum) x = true := by rw [better_add_self, hsum]
        exact o.better_trans hstep hx

end Objective

namespace LocalSearch

variable {ls : LocalSearch Rat} {order : List Partition} {p p' : Progress Rat}

/-- The state `p'` is `p` one round later, and the table of the round holds the
affinities of the graph. -/
structure RoundOf (ls : LocalSearch Rat) (order : List Partition) (p p' : Progress Rat) : Prop
    extends Sweep ls order p p' where
  tabulates : Tabulates ls p'.workspace.affinities p.assignment

/-- With exact weights every round is one with the affinities of the graph. -/
theorem Sweep.roundOf (ready : ls.Ready) (h : Sweep ls order p p') : RoundOf ls order p p' where
  toSweep := h
  tabulates := by
    obtain ⟨table, htable, tabulates⟩ :=
      affinities_eq ready h.start.legal h.start.fits.size_affinities
    obtain rfl : table = p'.workspace.affinities := Except.ok.inj (htable.symm.trans h.computed)
    exact tabulates

/-- **A round has a result**, and it neither polls nor scores a trial. -/
theorem round_gives (ready : ls.Ready) (horder : order.Perm ls.partitions) (hp : p.Sound ls)
    (scope : Scope Rat) :
    (ls.round order p).Gives scope fun p' scope' =>
      RoundOf ls order p p' ∧ scope.Quiet [] scope' :=
  (round_sweeps ready horder hp scope).mono fun _ _ hpost => ⟨hpost.1.roundOf ready, hpost.2.1⟩

namespace RoundOf

variable (ready : ls.Ready) (h : RoundOf ls order p p')

include h ready

/-- **A round changes the cut by the gains of its moves.** -/
theorem cut_eq :
    ls.graph.cut p'.assignment = ls.graph.cut p.assignment +
      (((List.range ls.graph.nodeCount).filter
        fun v => p'.assignment.community v ≠ p.assignment.community v).map
        (ls.gainOf p'.workspace.affinities p.assignment p'.assignment)).sum := by
  have hbalanced := greedyPass_balanced ready h.start.legal h.start.agrees h.tabulates
    (ready.nodup_nodes h.perm_order) (ready.nodes_lt h.perm_order)
  rw [← ((h.perm_moved ready).map _).sum_eq, h.assignment_eq]
  exact hbalanced

/-- A move is made for a gain that is better than none. -/
theorem gain_better {v : Nat} (hv : p'.assignment.community v ≠ p.assignment.community v) :
    ls.objective.better (ls.gainOf p'.workspace.affinities p.assignment p'.assignment v) 0 =
      true := by
  have hmem := (h.mem_moved_iff ready v).2 hv
  have hmoves := (h.pass_sound ready).2.moves hmem
  rw [gainOf, h.assignment_eq]
  exact hmoves.2.2.1

/-- A gain is a difference of the affinities at the start of the round. -/
theorem gainOf_eq {v : Nat} (hv : v < ls.graph.nodeCount) :
    ls.gainOf p'.workspace.affinities p.assignment p'.assignment v =
      ls.graph.affinity p.assignment v (p.assignment.community v) -
        ls.graph.affinity p.assignment v (p'.assignment.community v) := by
  rw [gainOf, moveGain, h.tabulates.entry_eq hv (h.start.legal.community_lt hv),
    h.tabulates.entry_eq hv ((h.sound ready).legal.community_lt hv)]

/-- **A round with a move makes the cut better.** -/
theorem better (hchanged : p'.changed = true) :
    ls.objective.better (ls.graph.cut p'.assignment) (ls.graph.cut p.assignment) = true := by
  rw [h.cut_eq ready, Objective.better_add_self]
  refine ls.objective.better_sum ?_ ?_
  · intro x hx
    obtain ⟨v, hv, rfl⟩ := List.mem_map.1 hx
    exact h.gain_better ready (of_decide_eq_true (List.mem_filter.1 hv).2)
  · intro hnone
    exact (h.changed_iff_moved ready).1 hchanged (List.map_eq_nil_iff.1 hnone)

end RoundOf

end LocalSearch

end KCut
