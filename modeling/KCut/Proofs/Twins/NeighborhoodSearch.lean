import KCut.Proofs.NeighborhoodSearch.Perturb
import KCut.Proofs.Twins.LocalSearch

/-!
# KCut.Proofs.Twins.NeighborhoodSearch

Neighborhood searches on twin problems.

A perturbation draws its nodes and reads the communities that they are in, but no
cost, so it goes the same way from two candidates with the same places
(`perturbMany_simulates`). The neighbor of a round is a copy of the best candidate:
what its buffers held before is gone, but for the cost cell, which the local search
overwrites. Its adoption is a comparison of costs, and comes out alike
(`settle_image`). So two searches from the same candidate stay in step
(`compute_simulates`).
-/

namespace KCut.NeighborhoodSearch

variable {α β : Type} {f : α → β} {base : Base α} {base' : Base β}
  {vns vns' : NeighborhoodSearch}

/-! ### Perturbations -/

section

variable (hk : vns'.k = vns.k) (hminSizes : vns'.minSizes = vns.minSizes)

include hk hminSizes

theorem attempt_simulates {retries : Nat} {c : Candidate α} {c' : Candidate β}
    (hsame : c.SamePlaces c') :
    Run.Simulates (Scope.Image f base base') (fun r r' => r'.1 = r.1 ∧ r.2.SamePlaces r'.2)
      (vns.attempt retries c) (vns'.attempt retries c') := by
  induction retries with
  | zero =>
      rw [attempt, attempt]
      exact Run.simulates_pure ⟨rfl, hsame⟩
  | succ retries ih =>
      rw [attempt, attempt, hk, hminSizes, hsame.assignment_eq, hsame.tally_eq]
      refine (Run.simulates_draw _ _).bind ?_
      rintro node _ ⟨-, rfl⟩
      refine (Run.simulates_check (Alike.refl _)).bind_eq fun current => ?_
      refine (Run.simulates_check (Alike.refl _)).bind_eq fun size => ?_
      refine (Run.simulates_check (Alike.refl _)).bind_eq fun least => ?_
      split
      · exact ih
      · refine (Run.simulates_draw _ _).bind ?_
        rintro shift _ ⟨-, rfl⟩
        refine (Run.simulates_check (Alike.refl _)).bind_eq fun target => ?_
        refine (Run.simulates_check (Alike.refl _)).bind_eq fun assignment => ?_
        refine (Run.simulates_check (Alike.refl _)).bind_eq fun tally => ?_
        exact Run.simulates_pure ⟨rfl, rfl, rfl⟩

variable (hretries : vns'.maxRetries = vns.maxRetries)

include hretries

theorem perturb_simulates {c : Candidate α} {c' : Candidate β} (hsame : c.SamePlaces c') :
    Run.Simulates (Scope.Image f base base') (fun r r' => r'.1 = r.1 ∧ r.2.SamePlaces r'.2)
      (vns.perturb c) (vns'.perturb c') := by
  rw [perturb, perturb, hretries, hsame.assignment_eq]
  split
  · exact Run.simulates_pure ⟨rfl, hsame⟩
  · exact attempt_simulates hk hminSizes hsame

/-- **Perturbations do not look at costs.** -/
theorem perturbMany_simulates {count : Nat} {c : Candidate α} {c' : Candidate β}
    (hsame : c.SamePlaces c') :
    Run.Simulates (Scope.Image f base base') (fun r r' => r'.1 = r.1 ∧ r.2.SamePlaces r'.2)
      (vns.perturbMany count c) (vns'.perturbMany count c') := by
  induction count generalizing c c' with
  | zero =>
      rw [perturbMany, perturbMany]
      exact Run.simulates_pure ⟨rfl, hsame⟩
  | succ count ih =>
      rw [perturbMany, perturbMany]
      refine (perturb_simulates hk hminSizes hretries hsame).bind ?_
      rintro ⟨moved, c₁⟩ ⟨_, c₁'⟩ ⟨rfl, hsame₁⟩
      dsimp only
      split
      · exact ih hsame₁
      · exact Run.simulates_pure ⟨rfl, hsame₁⟩

end

/-! ### Rounds -/

variable [Weight α] [Weight β]

/-- Two neighborhood searches on twin problems. -/
structure Twins (f : α → β) (vns vns' : NeighborhoodSearch) (ls : LocalSearch α)
    (ls' : LocalSearch β) : Prop where
  searches : ls.Twins f ls'
  suits : Matches vns ls
  suits' : Matches vns' ls'
  maxOrder_eq : vns'.maxOrder = vns.maxOrder
  maxRetries_eq : vns'.maxRetries = vns.maxRetries

/-- Two searches between the same rounds, in buffers of their own. -/
structure Progress.Image (f : α → β) (ls : LocalSearch α) (ls' : LocalSearch β) (p : Progress α)
    (p' : Progress β) : Prop where
  fits : p.workspace.Fits ls
  fits' : p'.workspace.Fits ls'
  sound : p.best.Sound ls.graph.nodeCount ls.k
  best_eq : p'.best = p.best.mapCost f
  neighbor : Spare ls p.neighbor
  neighbor' : Spare ls' p'.neighbor
  order_eq : p'.order = p.order
  outcome_eq : p'.outcome = p.outcome

namespace Twins

variable {ls : LocalSearch α} {ls' : LocalSearch β} (h : Twins f vns vns' ls ls')

include h

theorem k_eq : vns'.k = vns.k := by
  rw [h.suits'.k_eq, h.searches.k_eq, h.suits.k_eq]

theorem minSizes_eq : vns'.minSizes = vns.minSizes := by
  rw [h.suits'.minSizes_eq, h.searches.minSizes_eq, h.suits.minSizes_eq]

theorem carries : Objective.Carries f vns.objective vns'.objective := by
  rw [h.suits'.objective_eq, h.suits.objective_eq]
  exact h.searches.carries

/-- The candidates of twin searches have the sizes of both problems. -/
theorem spare {c : Candidate α} (hc : c.Sound ls.graph.nodeCount ls.k) :
    Spare ls c ∧ Spare ls' (c.mapCost f) := by
  refine ⟨⟨hc.legal.size_eq, hc.agrees.size_eq⟩, ⟨?_, ?_⟩⟩
  · rw [h.searches.nodeCount_eq]
    exact hc.legal.size_eq
  · rw [h.searches.k_eq]
    exact hc.agrees.size_eq

/-- Perturbed candidates have the same places, and respect the minimums. -/
theorem perturbMany_simulates {count : Nat} (horder : 0 < count → 1 < vns.maxOrder)
    {c : Candidate α} {c' : Candidate β} (hc : c.Sound ls.graph.nodeCount ls.k)
    (hsame : c.SamePlaces c') :
    Run.Simulates (Scope.Image f base base')
      (fun r r' => r.2.Sound ls.graph.nodeCount ls.k ∧ r'.1 = r.1 ∧ r.2.SamePlaces r'.2)
      (vns.perturbMany count c) (vns'.perturbMany count c') := by
  exact Run.Simulates.and_ensures
    (NeighborhoodSearch.perturbMany_simulates h.k_eq h.minSizes_eq h.maxRetries_eq hsame)
    fun s => (perturbMany_gives h.suits horder hc s).ensures.mono fun _ _ hpost => hpost.1.sound

/-- **A neighbor is adopted on both sides or on none.** -/
theorem settle_image {p : Progress α} {p' : Progress β} (hp : p.Image f ls ls' p')
    {w : Workspace α} {w' : Workspace β} (hw : w.Fits ls) (hw' : w'.Fits ls') {c : Candidate α}
    (hc : c.Sound ls.graph.nodeCount ls.k) :
    (vns'.settle { p' with workspace := w', neighbor := c.mapCost f }).1 =
        (vns.settle { p with workspace := w, neighbor := c }).1 ∧
      Progress.Image f ls ls' (vns.settle { p with workspace := w, neighbor := c }).2
        (vns'.settle { p' with workspace := w', neighbor := c.mapCost f }).2 := by
  have hprefers : vns'.objective.prefers (c.mapCost f).cost p'.best.cost =
      vns.objective.prefers c.cost p.best.cost := by
    rw [hp.best_eq]
    exact h.carries.prefers_eq c.cost p.best.cost
  obtain ⟨hspare, hspare'⟩ := h.spare hc
  obtain ⟨hbest, hbest'⟩ := h.spare hp.sound
  rw [settle, settle]
  dsimp only
  rw [hprefers]
  split
  · refine ⟨rfl, hw, hw', hc, rfl, ⟨hbest.size_assignment, hbest.size_tally⟩, ?_, rfl, ?_⟩
    · rw [hp.best_eq]
      exact ⟨hbest'.size_assignment, hbest'.size_tally⟩
    · rw [hp.outcome_eq]
  · refine ⟨rfl, hw, hw', hp.sound, hp.best_eq, hspare, hspare', ?_, ?_⟩
    · exact congrArg (· + 1) hp.order_eq
    · rw [hp.outcome_eq]

variable [Weight.Ordered α] [Weight.Ordered β]

/-- **Twin rounds** perturb alike, search alike and adopt alike. -/
theorem round_simulates {p : Progress α} {p' : Progress β} (hp : p.Image f ls ls' p')
    (horder : p.order < vns.maxOrder) :
    Run.Simulates (Scope.Image f base base')
      (fun r r' => r'.1 = r.1 ∧ Progress.Image f ls ls' r.2 r'.2)
      (vns.round ls p) (vns'.round ls' p') := by
  have hsound' : p'.best.Sound ls'.graph.nodeCount ls'.k := by
    rw [hp.best_eq, h.searches.nodeCount_eq, h.searches.k_eq]
    exact ⟨hp.sound.legal, hp.sound.agrees⟩
  have hstart : Candidate.Sound { p.neighbor with
      assignment := p.best.assignment
      tally := p.best.tally } ls.graph.nodeCount ls.k := ⟨hp.sound.legal, hp.sound.agrees⟩
  rw [round, round, hp.order_eq]
  refine (Run.simulates_begin _).bind fun _ _ _ => ?_
  refine .check (copyBest_eq hp.sound hp.neighbor) (copyBest_eq hsound' hp.neighbor') ?_
  rw [hp.best_eq]
  refine (h.perturbMany_simulates (fun _ => by omega) hstart ⟨rfl, rfl⟩).bind ?_
  rintro ⟨perturbed, c⟩ ⟨_, c'⟩ ⟨hc, rfl, hsame⟩
  refine (h.searches.compute_simulates hp.fits hp.fits' hc hsame).bind ?_
  rintro ⟨_, w, c₁⟩ ⟨_, w', c₁'⟩ hsearched
  obtain rfl : c₁' = c₁.mapCost f := hsearched.candidate_eq
  obtain ⟨himproved, himage⟩ := h.settle_image hp hsearched.fits hsearched.fits' hsearched.sound
  dsimp only at himproved himage ⊢
  rw [hp.best_eq, hp.order_eq] at himproved himage
  rw [himproved]
  refine (Run.simulates_count _).bind fun _ _ _ => ?_
  refine (Run.simulates_note (.vnsRound p.order c₁.cost _)).bind fun _ _ _ => ?_
  refine (Run.simulates_finish _).bind fun _ _ _ => ?_
  exact Run.simulates_pure ⟨rfl, himage⟩

/-! ### Searches -/

theorem search_simulates {bound : Nat} {p : Progress α} {p' : Progress β}
    (hp : p.Image f ls ls' p') :
    Run.Simulates (Scope.Image f base base') (Progress.Image f ls ls') (vns.search ls bound p)
      (vns'.search ls' bound p') := by
  induction bound generalizing p p' with
  | zero =>
      rw [search, search, hp.order_eq, h.maxOrder_eq]
      split
      · exact Run.simulates_check (.fault _)
      · exact Run.simulates_pure hp
  | succ bound ih =>
      rw [search, search, hp.order_eq, h.maxOrder_eq]
      split
      · next horder =>
        refine Run.simulates_poll.bind_eq fun stop => ?_
        cases stop with
        | true => exact Run.simulates_pure hp
        | false =>
            refine (h.round_simulates hp horder).bind ?_
            rintro ⟨perturbed, p₁⟩ ⟨_, p₁'⟩ ⟨rfl, hp₁⟩
            dsimp only at hp₁ ⊢
            split
            · exact ih hp₁
            · refine (Run.simulates_count _).bind fun _ _ _ => ?_
              refine Run.simulates_pure ⟨hp₁.fits, hp₁.fits', hp₁.sound, hp₁.best_eq,
                hp₁.neighbor, hp₁.neighbor', hp₁.order_eq, ?_⟩
              rw [hp₁.outcome_eq]
      · exact Run.simulates_pure hp

omit [Weight.Ordered α] [Weight.Ordered β] in
theorem roundBound_eq : vns'.roundBound ls' = vns.roundBound ls := by
  rw [roundBound, roundBound, h.maxOrder_eq, h.searches.k_eq, h.searches.nodeCount_eq]

end Twins

/-- The results of twin searches: the same outcome and, up to the change of the costs,
the same best candidate. The buffers are only known to have the right sizes. -/
structure ResultImage (f : α → β) (ls : LocalSearch α) (ls' : LocalSearch β)
    (r : VnsOutcome × Workspace α × Candidate α × Candidate α)
    (r' : VnsOutcome × Workspace β × Candidate β × Candidate β) : Prop where
  outcome_eq : r'.1 = r.1
  fits : r.2.1.Fits ls
  fits' : r'.2.1.Fits ls'
  neighbor : Spare ls r.2.2.1
  neighbor' : Spare ls' r'.2.2.1
  sound : r.2.2.2.Sound ls.graph.nodeCount ls.k
  best_eq : r'.2.2.2 = r.2.2.2.mapCost f

/-- **Twin neighborhood searches** give the same candidate, whatever the workspaces and
the buffers of the neighbors held before. -/
theorem Twins.compute_simulates [Weight.Ordered α] [Weight.Ordered β] {ls : LocalSearch α}
    {ls' : LocalSearch β} (h : Twins f vns vns' ls ls') {w : Workspace α} {w' : Workspace β}
    (hw : w.Fits ls) (hw' : w'.Fits ls') {neighbor best : Candidate α} {neighbor' : Candidate β}
    (hneighbor : Spare ls neighbor) (hneighbor' : Spare ls' neighbor')
    (hbest : best.Sound ls.graph.nodeCount ls.k) :
    Run.Simulates (Scope.Image f base base') (ResultImage f ls ls')
      (vns.compute ls w neighbor best) (vns'.compute ls' w' neighbor' (best.mapCost f)) := by
  rw [compute, compute, h.maxOrder_eq, h.roundBound_eq]
  by_cases hplain : vns.maxOrder = 0
  · simp only [if_pos hplain]
    refine (h.searches.compute_simulates hw hw' hbest ⟨rfl, rfl⟩).bind ?_
    intro r r' hsearched
    exact Run.simulates_pure ⟨rfl, hsearched.fits, hsearched.fits', hneighbor, hneighbor',
      hsearched.sound, hsearched.candidate_eq⟩
  · simp only [if_neg hplain]
    refine (Run.simulates_begin _).bind fun _ _ _ => ?_
    refine (h.search_simulates ⟨hw, hw', hbest, rfl, hneighbor, hneighbor', rfl, rfl⟩).bind ?_
    intro p p' hp
    refine (Run.simulates_finish _).bind fun _ _ _ => ?_
    rw [hp.outcome_eq, hp.best_eq]
    refine (Run.simulates_note (.vnsEnd _ _ _ p.best.cost)).bind fun _ _ _ => ?_
    exact Run.simulates_pure
      ⟨rfl, hp.fits, hp.fits', hp.neighbor, hp.neighbor', hp.sound, rfl⟩

end KCut.NeighborhoodSearch
