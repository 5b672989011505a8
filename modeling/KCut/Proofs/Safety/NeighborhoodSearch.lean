import KCut.Proofs.NeighborhoodSearch.Hops
import KCut.Proofs.Safety.LocalSearch

/-!
# KCut.Proofs.Safety.NeighborhoodSearch

Neighborhood searches make no step outside its contract, whatever the weights are.

A perturbation decrements no counter from zero, because it has compared the size of the
community with its minimum. Every round keeps the best candidate sound, and the buffers have the
sizes that the next round works with (`Hop.safe`), so a search ends with a result unless two
community ids overflow or it reaches a bound.
-/

namespace KCut.NeighborhoodSearch

/-- The faults that may be left to a search: two community ids overflow, or there is no
end to its rounds within their bound. -/
def Unfinished (maxOrder k : Nat) (fault : Fault) : Prop :=
  Overflow maxOrder k fault ∨ fault = .boundExceeded

variable {α : Type} {vns : NeighborhoodSearch}

/-- **A perturbation decrements no counter from zero**, whatever the candidate. -/
theorem attempt_tally {retries : Nat} {c : Candidate α} {scope scope' : Scope α}
    {r : Bool × Candidate α} (h : vns.attempt retries c scope = .ok (r, scope')) :
    c.tally.StepsTo r.2.tally := by
  induction retries generalizing scope with
  | zero =>
      rw [attempt] at h
      cases h
      exact Or.inl rfl
  | succ retries ih =>
      rw [attempt] at h
      obtain ⟨node, scope₁, -, h⟩ := Run.bind_eq_ok h
      obtain ⟨current, scope₂, -, h⟩ := Run.bind_eq_ok h
      obtain ⟨size, scope₃, hsize, h⟩ := Run.bind_eq_ok h
      obtain ⟨least, scope₄, -, h⟩ := Run.bind_eq_ok h
      split at h
      · exact ih h
      next hleast =>
      obtain ⟨shift, scope₅, -, h⟩ := Run.bind_eq_ok h
      obtain ⟨target, scope₆, -, h⟩ := Run.bind_eq_ok h
      obtain ⟨assignment, scope₇, -, h⟩ := Run.bind_eq_ok h
      obtain ⟨tally, scope₈, hmove, h⟩ := Run.bind_eq_ok h
      cases h
      -- The size has been compared with the minimum, so it is not zero.
      refine Or.inr ⟨current, target, ?_, (Run.eq_ok_of_check hmove)⟩
      rw [Tally.getD_of_get (Run.eq_ok_of_check hsize)]
      omega

/-- **A neighborhood search has a result** unless two community ids overflow or it reaches a
bound on its rounds. -/
theorem compute_safe [Weight α] [Weight.Ordered α] {ls : LocalSearch α} (h : Matches vns ls)
    {w : Workspace α} (hw : w.Fits ls) {neighbor best : Candidate α}
    (hneighbor : Spare ls neighbor) (hbest : best.Sound ls.graph.nodeCount ls.k)
    (scope : Scope α) :
    (vns.compute ls w neighbor best).GivesOr (Unfinished vns.maxOrder ls.k) scope fun r _ =>
      r.2.1.Fits ls ∧ Spare ls r.2.2.1 ∧ r.2.2.2.Sound ls.graph.nodeCount ls.k := by
  by_cases hplain : vns.maxOrder = 0
  · rw [compute]
    simp only [if_pos hplain]
    refine ((LocalSearch.compute_descends h.ready hw hbest scope).allow
      fun _ hfault => Or.inr hfault.1).bind ?_
    intro r scope' hpost
    obtain ⟨hfits, rounds, stopped, hdescends, -⟩ := hpost
    exact Or.inl (Run.gives_pure.2 ⟨hfits, hneighbor, hdescends.sound h.ready hbest⟩)
  · refine ((compute_hops h hplain hw hneighbor hbest scope).allow fun fault hfault => ?_).mono ?_
    · rcases hfault with ⟨_, ⟨-, hoverflow⟩ | ⟨hbound, -⟩⟩ | ⟨hbound, -⟩
      · exact Or.inl hoverflow
      · exact Or.inr hbound
      · exact Or.inr hbound
    · intro r scope' hpost
      obtain ⟨answers, p, more, p', -, hp, hending, rfl, -⟩ := hpost
      have hsafe := hending.safe h hp
      exact ⟨hsafe.fits, hsafe.neighbor, hsafe.best⟩

end KCut.NeighborhoodSearch
