import Mathlib.Algebra.Group.Subgroup.Ker
import Mathlib.Algebra.Group.Submonoid.BigOperators
import Mathlib.Algebra.Order.BigOperators.Group.List
import Mathlib.Algebra.Order.Group.Abs
import KCut.Proofs.Graph.EdgeWeight
import KCut.Proofs.LocalSearch.Converge

/-!
# KCut.Proofs.LocalSearch.Unweighted

How long a local search takes.

Every round but the last one moves a node, whatever the weights are
(`Rounds.rounds_le_swaps`). Without weights all affinities are whole, so a move is
worth at least one and the cut has changed by at least as much as there were moves
(`Rounds.swaps_le`); it has no room for more than the number of edges.
-/

namespace KCut

/-! ### Whole gains -/

/-- The whole numbers among the weights. -/
def whole : AddSubgroup Rat :=
  (Int.castAddHom Rat).range

theorem one_mem_whole : (1 : Rat) ∈ whole :=
  ⟨1, by simp⟩

/-- A whole number above zero is at least one. -/
theorem one_le_of_mem_whole {x : Rat} (hx : x ∈ whole) (hpos : 0 < x) : 1 ≤ x := by
  obtain ⟨z, rfl⟩ := hx
  simp only [Int.coe_castAddHom] at hpos ⊢
  exact_mod_cast hpos

namespace Objective

variable (o : Objective)

/-- The sign of an improvement. -/
def sign : Objective → Rat
  | maximize => 1
  | minimize => -1

theorem better_iff_sign {x y : Rat} : o.better x y = true ↔ 0 < o.sign * (x - y) := by
  cases o with
  | maximize => simp [sign]
  | minimize => simp [sign]

theorem sign_mul_le_abs (x : Rat) : o.sign * x ≤ |x| := by
  cases o with
  | maximize => simpa [sign] using le_abs_self x
  | minimize => simpa [sign] using neg_le_abs x

theorem sign_mul_mem_whole {x : Rat} (hx : x ∈ whole) : o.sign * x ∈ whole := by
  cases o with
  | maximize => simpa [sign] using hx
  | minimize => simpa [sign] using whole.neg_mem hx

end Objective

/-! ### Graphs without weights -/

namespace EdgeList

variable {l : EdgeList Rat} {g : Graph Rat}

theorem affinity_mem_whole (hbuild : l.build = .ok g) (hplain : g.weighted = false)
    (a : Assignment) {v : Nat} (hv : v < g.nodeCount) (c : Nat) : g.affinity a v c ∈ whole := by
  have hweight : ∀ {v : Nat}, v < g.nodeCount → ∀ u, Graph.weightTo (g.outgoing.row v) u ∈ whole := by
    intro v hv u
    refine list_sum_mem ?_
    intro x hx
    obtain ⟨arc, harc, rfl⟩ := List.mem_map.1 hx
    rw [weight_eq_one hbuild hplain hv arc (List.mem_filter.1 harc).1]
    exact one_mem_whole
  refine sum_mem ?_
  intro u hu
  have hu' := Finset.mem_range.1 (Finset.mem_of_mem_erase hu)
  split
  · refine whole.add_mem (hweight hv u) ?_
    split
    · exact whole.zero_mem
    · exact hweight hu' v
  · exact whole.zero_mem

/-- Without weights a cut weighs as much as there are edges in it, which are no loops. -/
theorem exists_cut_eq (hbuild : l.build = .ok g) (hplain : g.weighted = false) (a : Assignment) :
    ∃ i ≤ (l.edges.filter fun e => e.source ≠ e.target).length, g.cut a = (i : Rat) := by
  have hones := weightOrOne_eq_one hbuild hplain
  have hsub : (l.edges.filter fun e => a.community e.source ≠ a.community e.target).Sublist
      (l.edges.filter fun e => e.source ≠ e.target) := by
    refine List.monotone_filter_right l.edges ?_
    intro e he
    simp only [decide_eq_true_eq] at he ⊢
    exact fun hloop => he (by rw [hloop])
  refine ⟨_, hsub.length_le, ?_⟩
  rw [cut_eq_cutWeight hbuild, cutWeight, ← List.sum_eq_foldl]
  exact sum_map_of_eq_one fun e he => hones e (List.mem_filter.1 he).1

theorem cut_le_length (hbuild : l.build = .ok g) (hplain : g.weighted = false) (a : Assignment) :
    0 ≤ g.cut a ∧ g.cut a ≤ (l.edges.filter fun e => e.source ≠ e.target).length := by
  obtain ⟨i, hi, hcut⟩ := exists_cut_eq hbuild hplain a
  rw [hcut]
  exact ⟨Nat.cast_nonneg _, by exact_mod_cast hi⟩

end EdgeList

namespace LocalSearch

variable {ls : LocalSearch Rat} {p p' : Progress Rat}

/-! ### Rounds -/

/-- With whole affinities, a move is worth at least one: its gain is whole and better
than none. -/
theorem RoundOf.one_le_gain {order : List Partition} (h : RoundOf ls order p p')
    (ready : ls.Ready)
    (hwhole : ∀ v < ls.graph.nodeCount, ∀ c, ls.graph.affinity p.assignment v c ∈ whole)
    {v : Nat} (hv : v < ls.graph.nodeCount)
    (hmoved : p'.assignment.community v ≠ p.assignment.community v) :
    1 ≤ ls.objective.sign * ls.gainOf p'.workspace.affinities p.assignment p'.assignment v := by
  have hbetter := h.gain_better ready hmoved
  rw [Objective.better_iff_sign, sub_zero] at hbetter
  refine one_le_of_mem_whole ?_ hbetter
  rw [h.gainOf_eq ready hv]
  exact ls.objective.sign_mul_mem_whole (whole.sub_mem (hwhole v hv _) (hwhole v hv _))

/-- With whole affinities, a round changes the cut by at least as much as it has moved
nodes. -/
theorem RoundOf.swaps_le {order : List Partition} (h : RoundOf ls order p p') (ready : ls.Ready)
    (hwhole : ∀ v < ls.graph.nodeCount, ∀ c, ls.graph.affinity p.assignment v c ∈ whole) :
    (p'.swaps : Rat) - p.swaps ≤
      ls.objective.sign * (ls.graph.cut p'.assignment - ls.graph.cut p.assignment) := by
  let moved := (List.range ls.graph.nodeCount).filter fun v =>
    p'.assignment.community v ≠ p.assignment.community v
  let gain := ls.gainOf p'.workspace.affinities p.assignment p'.assignment
  have hmoved : ∀ v ∈ moved, 1 ≤ ls.objective.sign * gain v := by
    intro v hv
    obtain ⟨hrange, hne⟩ := List.mem_filter.1 hv
    exact h.one_le_gain ready hwhole (List.mem_range.1 hrange) (of_decide_eq_true hne)
  have hcut : ls.graph.cut p'.assignment = ls.graph.cut p.assignment + (moved.map gain).sum :=
    h.cut_eq ready
  have hswaps : p'.swaps = p.swaps + moved.length := by
    rw [h.swaps_eq, (h.perm_moved ready).length_eq]
  have hsum := List.card_nsmul_le_sum (moved.map fun v => ls.objective.sign * gain v) 1
    (List.forall_mem_map.2 hmoved)
  rw [List.length_map, nsmul_one, List.sum_map_mul_left] at hsum
  rw [hcut, hswaps, add_sub_cancel_left, Nat.cast_add, add_sub_cancel_left]
  exact hsum

namespace Rounds

variable {schedule : Schedule}

/-- **The cut has changed by at least as much as there were moves**, if all affinities
are whole. -/
theorem swaps_le (h : Rounds ls schedule p p') (ready : ls.Ready)
    (hwhole : ∀ a, ∀ v < ls.graph.nodeCount, ∀ c, ls.graph.affinity a v c ∈ whole) :
    (p'.swaps : Rat) - p.swaps ≤
      ls.objective.sign * (ls.graph.cut p'.assignment - ls.graph.cut p.assignment) := by
  induction h with
  | refl p => simp
  | @head p p₁ p₂ _ hsweep _ ih =>
      have hstep := (hsweep.roundOf ready).swaps_le ready (hwhole p.assignment)
      calc (p₂.swaps : Rat) - p.swaps
          = ((p₁.swaps : Rat) - p.swaps) + ((p₂.swaps : Rat) - p₁.swaps) := by ring
        _ ≤ ls.objective.sign * (ls.graph.cut p₁.assignment - ls.graph.cut p.assignment) +
              ls.objective.sign * (ls.graph.cut p₂.assignment - ls.graph.cut p₁.assignment) :=
            add_le_add hstep ih
        _ = ls.objective.sign * (ls.graph.cut p₂.assignment - ls.graph.cut p.assignment) := by ring

end Rounds

/-! ### Whole searches -/

/-- **A search that is never stopped converges.** Every round of it but the last one
moves a node, and without weights there are no more moves than the cut has changed by,
which is no more than the number of edges that are no loops. -/
theorem search_converges {l : EdgeList Rat} {g : Graph Rat} (hbuild : l.build = .ok g)
    (hword : g.nodeCount < Tally.modulus) {objective : Objective} {k concurrency minBatch : Nat}
    {minSizes : Array Nat} (hmin : minSizes.size = k)
    (hls : ls = .new g objective k minSizes concurrency minBatch) {schedule : Schedule}
    (hschedule : ∀ i, (schedule i).Perm ls.partitions) {w : Workspace Rat} (hw : w.Fits ls)
    {c : Candidate Rat} (hc : c.Sound g.nodeCount k) {scope : Scope Rat}
    (hnever : scope.termination.NeverFires) :
    ∃ outcome w' c' scope' start cost,
      ls.computeOn schedule w c scope = .ok ((outcome, w', c'), scope') ∧
      outcome.converged = true ∧ outcome.rounds ≤ outcome.swaps + 1 ∧
      g.cutWeight c.assignment = .ok start ∧ c'.cost = .of cost ∧
      g.cutWeight c'.assignment = .ok cost ∧
      (g.weighted = false → (outcome.swaps : Rat) ≤ |cost - start| ∧
        |cost - start| ≤ (l.edges.filter fun e => e.source ≠ e.target).length) := by
  have ready : ls.Ready := by
    rw [hls]
    exact ready_new (EdgeList.wellFormed_of_build hbuild) hword objective hmin concurrency minBatch
  obtain rfl : ls.graph = g := by rw [hls]; rfl
  obtain rfl : ls.k = k := by rw [hls]; rfl
  obtain ⟨⟨outcome, w', c'⟩, scope', hcompute, -, hsearched, p, hrounds, houtcome, hassignment,
    hquiet⟩ := computeOn_gives ready hschedule hw hc scope
  have hconverged : p.changed = false :=
    not_mem_answersFor_iff.1 (hnever.answers hquiet.asked)
  obtain rfl : outcome = ⟨p.rounds, p.swaps, !p.changed⟩ := houtcome
  refine ⟨_, w', c', scope', ls.graph.cut c.assignment, ls.graph.cut c'.assignment, hcompute, ?_, ?_,
    Graph.cutWeight_eq ready.graph hc.legal.size_eq, hsearched.cost_eq,
    Graph.cutWeight_eq ready.graph hsearched.sound.legal.size_eq, ?_⟩
  · rw [hconverged]
    rfl
  · exact hrounds.rounds_le_swaps
  · intro hplain
    have hswaps := hrounds.swaps_le ready fun a v hv c =>
      EdgeList.affinity_mem_whole hbuild hplain a hv c
    obtain ⟨hstart, hstart'⟩ := EdgeList.cut_le_length hbuild hplain c.assignment
    obtain ⟨hcost, hcost'⟩ := EdgeList.cut_le_length hbuild hplain c'.assignment
    have hassignment' : c'.assignment = p.assignment := hassignment
    simp only [Nat.cast_zero, sub_zero, ← hassignment'] at hswaps
    constructor
    · exact hswaps.trans (ls.objective.sign_mul_le_abs _)
    · exact abs_sub_le_of_nonneg_of_le hcost hcost' hstart hstart'

/-- A triangle without weights, with a loop: a search from one community, visited from
the last block to the first and never stopped. -/
theorem search_converges_plain :
    let l : EdgeList Rat := ⟨3, true, [⟨0, 1, none⟩, ⟨1, 2, none⟩, ⟨1, 1, none⟩, ⟨2, 0, none⟩]⟩
    let g := l.toGraph
    let ls : LocalSearch Rat := .new g .maximize 2 #[1, 0] 3 1
    let schedule : Schedule := fun _ => ls.partitions.reverse
    let c : Candidate Rat := ⟨#[0, 0, 0], #[3, 0], .worst⟩
    let scope : Scope Rat := .start 3 0 (.either (.time 5) (.predicate (fun _ => true) 0))
    ∃ r scope' cost, ls.computeOn schedule ls.workspace c scope = .ok (r, scope') ∧
      r.1.converged = true ∧ r.1.rounds ≤ r.1.swaps + 1 ∧ r.2.2.cost = .of cost ∧
      g.cutWeight r.2.2.assignment = .ok cost ∧ (r.1.swaps : Rat) ≤ |cost| ∧ |cost| ≤ 3 := by
  intro l g ls schedule c scope
  have hbuild : l.build = .ok g := rfl
  have hschedule : ∀ i, (schedule i).Perm ls.partitions := fun _ => List.reverse_perm _
  have hw : ls.workspace.Fits ls := ⟨by decide +kernel, by decide +kernel⟩
  have hc : c.Sound g.nodeCount 2 := ⟨by decide, by decide⟩
  have hnever : scope.termination.NeverFires := .either (.of_poll_eq rfl) (.predicate fun _ => rfl)
  have hzero : g.cutWeight c.assignment = .ok 0 := by decide +kernel
  obtain ⟨outcome, w', c', scope', start, cost, hcompute, hconverged, hrounds, hstart, hcost, hcut,
    hplain⟩ := search_converges hbuild (by decide) (k := 2) rfl (Eq.refl ls) hschedule hw hc hnever
  obtain rfl : (0 : Rat) = start := Except.ok.inj (hzero.symm.trans hstart)
  obtain ⟨hswaps, hedges⟩ := hplain rfl
  rw [sub_zero] at hswaps hedges
  exact ⟨(outcome, w', c'), scope', cost, hcompute, hconverged, hrounds, hcost, hcut, hswaps, hedges⟩

end LocalSearch

end KCut
