import KCut.Proofs.LocalSearch.Ready
import KCut.Proofs.NeighborhoodSearch.Move

/-!
# KCut.Proofs.NeighborhoodSearch.Perturb

Perturbations for a local search on the same problem, and the copy of the best candidate that
they start from.

What has been `Displaced` is still sound for the local search, and nodes have left only
communities that are above their minimums (`Perturbed`). Perturbations may end in one fault, a
sum of two community ids that is no word. The buffers of the neighbor need the right sizes and
nothing more (`Spare`): a round writes the best candidate over them.
-/

namespace KCut.NeighborhoodSearch

variable {α : Type} [Weight α] {vns : NeighborhoodSearch} {ls : LocalSearch α}

/-- The two searches of a run work on the same problem, and a community id is a
32-bit word. -/
structure Matches (vns : NeighborhoodSearch) (ls : LocalSearch α) : Prop where
  ready : ls.Ready
  objective_eq : vns.objective = ls.objective
  k_eq : vns.k = ls.k
  minSizes_eq : vns.minSizes = ls.minSizes
  k_lt : ls.k < 2 ^ 32

theorem matches_new {g : Graph α} (wf : g.WellFormed) (hword : g.nodeCount < Tally.modulus)
    (objective : Objective) {k : Nat} (hk : k < 2 ^ 32) {minSizes : Array Nat}
    (hmin : minSizes.size = k) (maxOrder maxRetries concurrency minBatch : Nat) :
    Matches ⟨objective, k, maxOrder, maxRetries, minSizes⟩
      (.new g objective k minSizes concurrency minBatch) where
  ready := LocalSearch.ready_new wf hword objective hmin concurrency minBatch
  objective_eq := rfl
  k_eq := rfl
  minSizes_eq := rfl
  k_lt := hk

/-- The fault of a sum of two community ids that is no word. It takes a search that
perturbs, which the round of order zero does not, and more than `2 ^ 31`
communities. -/
def Overflow (maxOrder k : Nat) (fault : Fault) : Prop :=
  1 < maxOrder ∧ 2 ^ 31 < k ∧ ∃ sum, fault = .overflow sum

/-! ### Perturbations -/

/-- The candidate `c'` came from `c` by moves that respect the minimums. -/
structure Perturbed (ls : LocalSearch α) (c c' : Candidate α) : Prop where
  sound : c'.Sound ls.graph.nodeCount ls.k
  spares : Assignment.Spares ls.minSizes ls.k c.assignment c'.assignment

namespace Matches

variable (h : Matches vns ls)

include h

theorem le_size_minSizes : vns.k ≤ vns.minSizes.size := by
  rw [h.k_eq, h.minSizes_eq, h.ready.size_minSizes]

theorem k_le : vns.k ≤ 2 ^ 64 := by
  rw [h.k_eq]
  exact (Nat.le_of_lt h.k_lt).trans (by decide)

theorem perturbed {count : Nat} {c c' : Candidate α}
    (hdisplaced : Displaced vns ls.graph.nodeCount count c c') : Perturbed ls c c' :=
  ⟨h.k_eq ▸ hdisplaced.sound, h.minSizes_eq ▸ h.k_eq ▸ hdisplaced.spares⟩

end Matches

/-- **Perturbations respect the minimums.** If there are none to make, nothing happens. -/
theorem perturbMany_gives (h : Matches vns ls) {count : Nat}
    (horder : 0 < count → 1 < vns.maxOrder) {c : Candidate α}
    (hc : c.Sound ls.graph.nodeCount ls.k) (scope : Scope α) :
    (vns.perturbMany count c).GivesOr (fun fault => 0 < count ∧ Overflow vns.maxOrder ls.k fault)
      scope fun r scope' =>
        Perturbed ls c r.2 ∧ (count = 0 → r = (true, c)) ∧ scope.Quiet [] scope' := by
  have hmany := perturbMany_displaces (h.k_eq ▸ hc) h.le_size_minSizes h.ready.nodeCount_lt
    h.k_le count scope
  rw [← h.k_eq]
  refine (hmany.allow fun fault hfault => ?_).mono fun r scope' hpost => ?_
  · obtain ⟨hpos, hoverflow⟩ := hfault
    exact ⟨hpos, horder hpos, hoverflow⟩
  · obtain ⟨⟨stream, rfl⟩, hdisplaced, hnone⟩ := hpost
    exact ⟨h.perturbed hdisplaced, hnone, (Scope.Quiet.refl scope).drawn stream⟩

/-! ### Buffers for a neighbor -/

/-- Buffers for a neighbor. -/
structure Spare (ls : LocalSearch α) (c : Candidate α) : Prop where
  size_assignment : c.assignment.size = ls.graph.nodeCount
  size_tally : c.tally.size = ls.k

omit [Weight α] in
theorem copyBest_eq {p : Progress α} (hbest : p.best.Sound ls.graph.nodeCount ls.k)
    (hneighbor : Spare ls p.neighbor) :
    copyBest p = .ok { p.neighbor with
      assignment := p.best.assignment
      tally := p.best.tally } :=
  copyBest_eq_ok hbest hneighbor.size_assignment hneighbor.size_tally

omit [Weight α] in
/-- The buffers of a candidate may serve a neighbor. -/
theorem spare_of_sound {c : Candidate α} (hc : c.Sound ls.graph.nodeCount ls.k) : Spare ls c :=
  ⟨hc.legal.size_eq, hc.agrees.size_eq⟩

end KCut.NeighborhoodSearch
