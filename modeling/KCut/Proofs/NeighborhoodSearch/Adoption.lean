import KCut.Proofs.LocalSearch.Books
import KCut.Proofs.NeighborhoodSearch.Search
import KCut.Proofs.NeighborhoodSearch.Tour

/-!
# KCut.Proofs.NeighborhoodSearch.Adoption

A neighborhood search improves its candidate or leaves it as it was.

The best candidate and the neighbor change places whole, so whatever is best at any moment is
the candidate of the start, untouched, or a neighbor with the score that its local search has
given it (`Hop.best_eq_or_scored`). It does not matter whether the perturbations in front of
that search have succeeded. The costs of the adopted neighbors form a chain, each better than
the one before (`Laps.adoptedCosts_isChain`), which ends with the best cost.
-/

namespace KCut.NeighborhoodSearch

variable {α : Type} [Weight α] {vns : NeighborhoodSearch} {ls : LocalSearch α}
  {p p' p'' : Progress α} {perturbed : Bool} {answers more : List Bool}

/-! ### What is best -/

/-- Nothing has been adopted since `p`, and the best candidate is still the same; or it carries
its own score. -/
def UntouchedOrScored (ls : LocalSearch α) (p p' : Progress α) : Prop :=
  p'.outcome.improvements = p.outcome.improvements ∧ p'.best = p.best ∨
    p'.best.cost = ls.scoreOf p'.best.assignment

theorem UntouchedOrScored.trans (h : UntouchedOrScored ls p p')
    (h' : UntouchedOrScored ls p' p'') : UntouchedOrScored ls p p'' := by
  rcases h' with ⟨hcount, hbest⟩ | hscored
  · unfold UntouchedOrScored
    rw [hcount, hbest]
    exact h
  · exact Or.inr hscored

/-- **A round changes the places of two whole candidates**, or leaves the best one alone. -/
theorem Hop.best_eq_or_scored (h : Hop vns ls p perturbed answers p') :
    UntouchedOrScored ls p p' := by
  cases h with
  | adopted _ hfound _ => exact Or.inr hfound.cost_eq
  | kept => exact Or.inl ⟨rfl, rfl⟩

theorem Hops.best_eq_or_scored (h : Hops vns ls p answers p') : UntouchedOrScored ls p p' := by
  induction h with
  | refl p => exact Or.inl ⟨rfl, rfl⟩
  | head _ hhop _ ih => exact hhop.best_eq_or_scored.trans ih

theorem Ending.best_eq_or_scored (h : Ending vns ls p answers p') : UntouchedOrScored ls p p' := by
  cases h with
  | done => exact Or.inl ⟨rfl, rfl⟩
  | stopped => exact Or.inl ⟨rfl, rfl⟩
  | stuck _ hhop => exact hhop.best_eq_or_scored

section

variable [Weight.Ordered α] (ready : ls.Ready)

include ready

theorem Hops.spares (h : Hops vns ls p answers p') :
    Assignment.Spares ls.minSizes ls.k p.best.assignment p'.best.assignment := by
  induction h with
  | refl p => exact .refl _
  | head _ hhop _ ih => exact (hhop.spares ready).trans ih

theorem Ending.spares (h : Ending vns ls p answers p') :
    Assignment.Spares ls.minSizes ls.k p.best.assignment p'.best.assignment := by
  cases h with
  | done => exact .refl _
  | stopped => exact .refl _
  | stuck _ hhop =>
      have hround := hhop.spares ready
      exact hround

end

/-! ### Whole searches -/

/-- **A search that adopts anything ends with something better.** -/
theorem Laps.prefers [Weight.Bounded α] {laps : List (Lap α)} (h : Laps vns p laps p')
    (hsome : adoptedCosts laps ≠ []) :
    vns.objective.prefers p'.best.cost p.best.cost = true := by
  have : Trans (fun old new : Score α => vns.objective.prefers new old = true)
      (fun old new => vns.objective.prefers new old = true)
      (fun old new => vns.objective.prefers new old = true) :=
    ⟨fun h h' => vns.objective.prefers_trans h' h⟩
  have hlast := h.best_cost_eq
  have hall := List.pairwise_cons.1 (List.isChain_iff_pairwise.1 h.adoptedCosts_isChain)
  rw [List.getLast?_cons_of_ne_nil hsome] at hlast
  exact hall.1 _ (List.mem_of_getLast? hlast)

/-- **A search improves its candidate or leaves it as it was.** Unless a local search in it has
no end, which takes rounded weights, it has a result. Without an improvement the best candidate
is what it was, bit by bit; otherwise its cost is better than the one at the start, as every
adopted cost is better than the one it replaced, and is what scoring it gives. Either way it is
legal, its tally holds the sizes of its communities, and none of them has fallen below its
minimum unless it was there at the start; then it has lost nothing. -/
theorem search_improves_or_leaves [Weight.Bounded α] {l : EdgeList α} {g : Graph α}
    (hbuild : l.build = .ok g) (hword : g.nodeCount < Tally.modulus) {objective : Objective}
    {k maxOrder maxRetries concurrency minBatch : Nat} {minSizes : Array Nat}
    (hmin : minSizes.size = k) (hk : k ≤ 2 ^ 31) (hpos : 0 < maxOrder)
    (hvns : vns = ⟨objective, k, maxOrder, maxRetries, minSizes⟩)
    (hls : ls = .new g objective k minSizes concurrency minBatch) {w : Workspace α}
    (hw : w.Fits ls) {neighbor best : Candidate α} (hneighbor : Spare ls neighbor)
    (hbest : best.Sound g.nodeCount k) (scope : Scope α) :
    (vns.compute ls w neighbor best scope = .error .boundExceeded ∧ ls.Endless) ∨
    ∃ laps finish p s scope' sizes,
      Tour vns ls (startOf w neighbor best) (enterSearch scope) laps finish p s ∧
      vns.compute ls w neighbor best scope =
        .ok ((p.outcome, p.workspace, p.neighbor, p.best), scope') ∧
      scope'.journal.neighborhoods = scope.journal.neighborhoods ++ laps.map Lap.line ∧
      p.outcome.improvements = (adoptedCosts laps).length ∧
      (p.outcome.improvements = 0 → p.best = best) ∧
      (p.outcome.improvements ≠ 0 → objective.prefers p.best.cost best.cost = true ∧
        ∀ scope₁, ∃ scope₂,
          ls.evaluate p.best.assignment scope₁ = .ok (p.best.cost, scope₂)) ∧
      (best.cost :: adoptedCosts laps).IsChain
        (fun old new => objective.prefers new old = true) ∧
      (best.cost :: adoptedCosts laps).getLast? = some p.best.cost ∧
      p.best.assignment.size = g.nodeCount ∧
      (∀ community ∈ p.best.assignment, community < k) ∧
      p.best.assignment.communitySizes k = .ok sizes ∧ p.best.tally = sizes ∧
      sizes.toList.sum = g.nodeCount ∧
      ∀ i < k, min (best.tally.getD i 0) (minSizes.getD i 0) ≤ sizes.getD i 0 := by
  have hmatch : Matches vns ls := by
    rw [hvns, hls]
    exact matches_new (EdgeList.wellFormed_of_build hbuild) hword objective
      (Nat.lt_of_le_of_lt hk (by decide)) hmin maxOrder maxRetries concurrency minBatch
  have ready := hmatch.ready
  obtain rfl : ls.graph = g := by rw [hls]; rfl
  obtain rfl : ls.k = k := by rw [hls]; rfl
  obtain rfl : ls.minSizes = minSizes := by rw [hls]; rfl
  obtain rfl : vns.maxOrder = maxOrder := by rw [hvns]
  obtain rfl : vns.objective = objective := by rw [hvns]
  have hplain : vns.maxOrder ≠ 0 := by omega
  rcases compute_hops hmatch hplain hw hneighbor hbest scope with
    ⟨r, scope', hrun, answers, q, more, q', hhops, hq, hending, hr, -⟩ | ⟨fault, hrun, hfault⟩
  · right
    obtain ⟨laps, finish, p, s, htour, hr', hlogged⟩ :=
      compute_tours hplain w neighbor best scope _ _ hrun
    have hsame : q'.outcome = p.outcome ∧ q'.best = p.best :=
      ⟨congrArg Prod.fst (hr.symm.trans hr'), congrArg (·.2.2.2) (hr.symm.trans hr')⟩
    obtain ⟨houtcome, hbest'⟩ := hsame
    have hturns := htour.turns
    have hcount : p.outcome.improvements = (adoptedCosts laps).length := by
      rw [Laps.length_adoptedCosts]
      simpa [startOf] using hturns.improvements_eq
    have hsound := (hending.safe hmatch hq).best
    have hspares := (hhops.spares ready).trans (hending.spares ready)
    have hscored := hhops.best_eq_or_scored.trans hending.best_eq_or_scored
    rw [hbest'] at hsound hspares
    obtain ⟨sizes, hsizes⟩ := hbest.sizes_of_spares hsound hspares
    rw [hr'] at hrun
    refine ⟨laps, finish, p, s, scope', sizes, htour, hrun, hlogged, hcount, ?_, ?_,
      hturns.adoptedCosts_isChain, hturns.best_cost_eq, hsizes⟩
    · intro hnone
      rw [hcount, Laps.length_adoptedCosts] at hnone
      exact hturns.best_eq hnone
    · intro hsome
      constructor
      · refine hturns.prefers fun hnone => hsome ?_
        rw [hcount, hnone, List.length_nil]
      · -- The search has adopted something, so the best candidate is no longer that of the start.
        rw [UntouchedOrScored, houtcome, hbest'] at hscored
        obtain ⟨cost, hcost⟩ := LocalSearch.costIn_total ready hsound.legal.size_eq (.refl _)
        rw [LocalSearch.scoreOf_eq hcost] at hscored
        rw [hscored.resolve_left fun hnone => hsome hnone.1]
        exact LocalSearch.evaluateIn_of_cost hcost
  · left
    rcases overflow_or_endless_of_searchFault hmatch hfault with ⟨-, hlarge, -⟩ | ⟨rfl, hendless⟩
    · omega
    · exact ⟨hrun, hendless⟩

/-- The undirected triangle in two communities of which one has to keep two nodes: a search of
order two from all nodes in the other one, which starts at the weight of no cut. -/
theorem improves_or_leaves_triangle :
    let ls : LocalSearch Rat := .new (EdgeList.triangle true).toGraph .maximize 2 #[1, 2] 3 1
    let vns : NeighborhoodSearch := ⟨.maximize, 2, 2, 5, #[1, 2]⟩
    let best : Candidate Rat := ⟨#[0, 0, 0], #[3, 0], .of 0⟩
    ∃ laps finish p s scope' sizes, Tour vns ls (startOf ls.workspace (.blank 3 2) best)
        (enterSearch (.start 4 7 .never)) laps finish p s ∧
      vns.compute ls ls.workspace (.blank 3 2) best (.start 4 7 .never) =
        .ok ((p.outcome, p.workspace, p.neighbor, p.best), scope') ∧
      p.outcome.improvements = (adoptedCosts laps).length ∧
      (.of 0 :: adoptedCosts laps).IsChain
        (fun old new => Objective.maximize.prefers new old = true) ∧
      p.best.assignment.communitySizes 2 = .ok sizes ∧ p.best.tally = sizes ∧
      1 ≤ sizes.getD 0 0 := by
  intro ls vns best
  have hw : ls.workspace.Fits ls := ⟨by decide +kernel, by decide +kernel⟩
  have hneighbor : Spare ls (.blank 3 2) := ⟨Assignment.size_zero _, Tally.size_zero _⟩
  have hbest : best.Sound (EdgeList.triangle true).toGraph.nodeCount 2 := ⟨by decide, by decide⟩
  have wf := EdgeList.wellFormed_of_build (EdgeList.build_triangle true)
  have ready : ls.Ready := LocalSearch.ready_new wf (by decide) .maximize (k := 2) rfl 3 1
  rcases search_improves_or_leaves (EdgeList.build_triangle true) (by decide) (k := 2) rfl
      (by decide) (by decide) (Eq.refl vns) (Eq.refl ls) hw hneighbor hbest (.start 4 7 .never) with
    ⟨-, hendless⟩ | ⟨laps, finish, p, s, scope', sizes, htour, hcompute, -, hcount, -, -, hchain, -,
      -, -, hsizes, htally, -, hleast⟩
  · exact absurd hendless (LocalSearch.not_endless ready)
  · exact ⟨laps, finish, p, s, scope', sizes, htour, hcompute, hcount, hchain, hsizes, htally,
      hleast 0 (by decide)⟩

end KCut.NeighborhoodSearch
