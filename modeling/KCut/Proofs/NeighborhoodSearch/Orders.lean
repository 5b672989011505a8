import KCut.Proofs.LocalSearch.Unweighted
import KCut.Proofs.NeighborhoodSearch.Search
import KCut.Proofs.NeighborhoodSearch.Tour

/-!
# KCut.Proofs.NeighborhoodSearch.Orders

The schedule of a neighborhood search, and how long it takes.

The orders of the rounds go up from zero and are set back by every improvement, so a search
that is neither stopped nor stuck ends with one round of every order none of which has improved
anything (`Laps.exists_tail`). Without weights a cut has one of few values, and an improvement
leaves fewer of them that are better still (`Hop.levels_le`); so there are few improvements and,
with fewer rounds between them than there are orders, few rounds.
-/

namespace KCut.NeighborhoodSearch

variable {vns : NeighborhoodSearch} {ls : LocalSearch Rat} {p p' p'' : Progress Rat}
  {perturbed : Bool} {answers more : List Bool}

/-! ### The number of improvements -/

/-- The number of cut values up to `m` that are better than the content of a cost cell. -/
def levels (o : Objective) (m : Nat) (score : Score Rat) : Nat :=
  o.countBetter (Finset.range (m + 1)) (fun i : Nat => .of (i : Rat)) score

section

variable {m : Nat} (ready : ls.Ready)
  (hfew : ∀ a : Assignment, ∃ i ≤ m, ls.graph.cut a = (i : Rat))

include ready hfew

/-- Every improvement uses up a cut value. -/
theorem Hop.levels_le (h : Hop vns ls p perturbed answers p') :
    levels vns.objective m p'.best.cost + p'.outcome.improvements ≤
      levels vns.objective m p.best.cost + p.outcome.improvements := by
  cases h with
  | @adopted w c _ hfound hbetter =>
      obtain ⟨i, hi, hcut⟩ := hfew c.assignment
      have hcost : c.cost = .of (i : Rat) := by rw [hfound.scored ready, hcut]
      rw [hcost] at hbetter
      have hfall : levels vns.objective m c.cost < levels vns.objective m p.best.cost := by
        rw [hcost]
        exact vns.objective.countBetter_lt (fun i : Nat => .of (i : Rat))
          (Finset.mem_range.2 (Nat.lt_succ_of_le hi)) hbetter
      dsimp only
      omega
  | kept => exact Nat.le_refl _

theorem Hops.levels_le (h : Hops vns ls p answers p') :
    levels vns.objective m p'.best.cost + p'.outcome.improvements ≤
      levels vns.objective m p.best.cost + p.outcome.improvements := by
  induction h with
  | refl p => exact Nat.le_refl _
  | head _ hhop _ ih => exact ih.trans (hhop.levels_le ready hfew)

theorem Ending.levels_le (h : Ending vns ls p answers p') :
    levels vns.objective m p'.best.cost + p'.outcome.improvements ≤
      levels vns.objective m p.best.cost + p.outcome.improvements := by
  cases h with
  | done => exact Nat.le_refl _
  | stopped => exact Nat.le_refl _
  | stuck _ hhop => simpa using hhop.levels_le ready hfew

/-- **There are no more improvements than cut values.** -/
theorem Ending.improvements_le (hhops : Hops vns ls p answers p')
    (hending : Ending vns ls p' more p'') (hstart : p.outcome.improvements = 0) :
    p''.outcome.improvements ≤ m + 1 := by
  have hchain := hhops.levels_le ready hfew
  have hlast := hending.levels_le ready hfew
  have hall : levels vns.objective m p.best.cost ≤ (Finset.range (m + 1)).card :=
    vns.objective.countBetter_le _ _ _
  rw [Finset.card_range] at hall
  omega

end

/-! ### Whole searches -/

variable {l : EdgeList Rat} {g : Graph Rat}

/-- **The orders of a search rise from zero and are set back by improvements.** From a counted
candidate a search has a result, unless two community ids overflow. Its rounds, which are run
one after another and logged, have orders below the maximum that follow this rule; if it is
neither stopped nor stuck, its last rounds have all orders from zero up and none of them has
improved anything; and it is stuck iff the perturbations of its last round have failed. Without
weights there are at most as many improvements as cut values, and few rounds in between. -/
theorem orders_rise_until_exhausted (hbuild : l.build = .ok g) (hword : g.nodeCount < Tally.modulus)
    {objective : Objective} {k maxOrder maxRetries concurrency minBatch : Nat}
    {minSizes : Array Nat} (hmin : minSizes.size = k) (hk : k < 2 ^ 32) (hpos : 0 < maxOrder)
    (hvns : vns = ⟨objective, k, maxOrder, maxRetries, minSizes⟩)
    (hls : ls = .new g objective k minSizes concurrency minBatch) {w : Workspace Rat}
    (hw : w.Fits ls) {neighbor best : Candidate Rat} (hneighbor : Spare ls neighbor)
    (hbest : best.Sound g.nodeCount k) (scope : Scope Rat) :
    (2 ^ 31 < k ∧ 1 < maxOrder ∧
      ∃ sum, vns.compute ls w neighbor best scope = .error (.overflow sum)) ∨
    ∃ laps finish p s scope',
      Tour vns ls (startOf w neighbor best) (enterSearch scope) laps finish p s ∧
      vns.compute ls w neighbor best scope =
        .ok ((p.outcome, p.workspace, p.neighbor, p.best), scope') ∧
      scope'.journal.neighborhoods = scope.journal.neighborhoods ++ laps.map Lap.line ∧
      p.outcome.rounds = laps.length ∧ p.outcome.improvements = laps.countP (·.improved) ∧
      (∀ first ∈ laps.head?, first.order = 0) ∧
      (laps.IsChain fun lap next => next.order = if lap.improved then 0 else lap.order + 1) ∧
      (∀ lap ∈ laps, lap.order < maxOrder) ∧
      (scope.termination.NeverFires → finish ≠ .stopped) ∧
      (finish = .exhausted → ∃ before tail, laps = before ++ tail ∧
        tail.map (·.order) = List.range maxOrder ∧ ∀ lap ∈ tail, lap.improved = false) ∧
      (p.outcome.stuck = true ↔ finish = .stuck) ∧
      (p.outcome.stuck = true ↔ ∃ last ∈ laps.getLast?, last.perturbed = false) ∧
      (g.weighted = false →
        let m := (l.edges.filter fun e => e.source ≠ e.target).length
        p.outcome.improvements ≤ m + 1 ∧ p.outcome.rounds ≤ maxOrder * (m + 2)) := by
  have hmatch : Matches vns ls := by
    rw [hvns, hls]
    exact matches_new (EdgeList.wellFormed_of_build hbuild) hword objective hk hmin maxOrder
      maxRetries concurrency minBatch
  obtain rfl : ls.graph = g := by rw [hls]; rfl
  obtain rfl : ls.k = k := by rw [hls]; rfl
  obtain rfl : vns.maxOrder = maxOrder := by rw [hvns]
  have hplain : vns.maxOrder ≠ 0 := by omega
  rcases compute_hops hmatch hplain hw hneighbor hbest scope with
    ⟨r, scope', hrun, answers, q, more, q', hhops, -, hending, hr, -⟩ | ⟨fault, hrun, hfault⟩
  · right
    obtain ⟨laps, finish, p, s, htour, hr', hlogged⟩ :=
      compute_tours hplain w neighbor best scope _ _ hrun
    have houtcome : q'.outcome = p.outcome := congrArg Prod.fst (hr.symm.trans hr')
    have hturns := htour.turns
    have hstuck := htour.outcome_stuck rfl
    have horder := hturns.order_le (Nat.zero_le _)
    rw [hr'] at hrun
    refine ⟨laps, finish, p, s, scope', htour, hrun, hlogged, ?_, ?_, hturns.order_head,
      hturns.isChain, hturns.order_lt, htour.not_stopped, ?_, hstuck, hstuck.trans htour.stuck_iff,
      ?_⟩
    · simpa [startOf] using hturns.rounds_eq
    · simpa [startOf] using hturns.improvements_eq
    · intro hexhausted
      have hmax : p.order = vns.maxOrder :=
        Nat.le_antisymm horder (Nat.le_of_not_lt (htour.order_of_exhausted hexhausted))
      obtain ⟨before, tail, hlaps, hidle, horders⟩ := hturns.exists_tail
      refine ⟨before, tail, hlaps, ?_, hidle⟩
      rcases horders with hup | ⟨-, -, hup⟩
      · rw [hup, hmax]
      · rw [hup, hmax, List.range_eq_range']
        rfl
    · intro hunweighted m
      have himprovements : p.outcome.improvements ≤ m + 1 := by
        rw [← houtcome]
        exact Ending.improvements_le hmatch.ready (EdgeList.exists_cut_eq hbuild hunweighted) hhops
          hending rfl
      have hrounds : p.outcome.rounds ≤ p.outcome.improvements * vns.maxOrder + p.order :=
        hturns.rounds_le (Nat.zero_le _)
      refine ⟨himprovements, ?_⟩
      calc p.outcome.rounds
          ≤ p.outcome.improvements * vns.maxOrder + p.order := hrounds
        _ ≤ (m + 1) * vns.maxOrder + vns.maxOrder :=
            Nat.add_le_add (Nat.mul_le_mul_right _ himprovements) horder
        _ = vns.maxOrder * (m + 2) := by ring
  · obtain ⟨hwide, hlarge, sum, rfl⟩ := overflow_of_searchFault hmatch hfault
    exact Or.inl ⟨hlarge, hwide, sum, hrun⟩

/-- The triangle without weights, with a loop: a search of order two from one community, which
nothing stops. -/
theorem orders_plain :
    let l : EdgeList Rat := ⟨3, true, [⟨0, 1, none⟩, ⟨1, 2, none⟩, ⟨1, 1, none⟩, ⟨2, 0, none⟩]⟩
    let ls : LocalSearch Rat := .new l.toGraph .maximize 2 #[1, 0] 3 1
    let vns : NeighborhoodSearch := ⟨.maximize, 2, 2, 5, #[1, 0]⟩
    let best : Candidate Rat := ⟨#[0, 0, 0], #[3, 0], .worst⟩
    ∃ laps finish p s scope', Tour vns ls (startOf ls.workspace (.blank 3 2) best)
        (enterSearch (.start 4 7 .never)) laps finish p s ∧
      vns.compute ls ls.workspace (.blank 3 2) best (.start 4 7 .never) =
        .ok ((p.outcome, p.workspace, p.neighbor, p.best), scope') ∧
      scope'.journal.neighborhoods = laps.map Lap.line ∧ finish ≠ .stopped ∧
      (∀ lap ∈ laps, lap.order < 2) ∧ p.outcome.improvements ≤ 4 ∧ p.outcome.rounds ≤ 10 := by
  intro l ls vns best
  have hw : ls.workspace.Fits ls := ⟨by decide, by decide⟩
  have hneighbor : Spare ls (.blank 3 2) := ⟨Assignment.size_zero _, Tally.size_zero _⟩
  have hbest : best.Sound l.toGraph.nodeCount 2 := ⟨by decide, by decide⟩
  rcases orders_rise_until_exhausted (l := l) rfl (by decide) (k := 2) rfl (by decide) (by decide)
      (Eq.refl vns) (Eq.refl ls) hw hneighbor hbest (.start 4 7 .never) with
    ⟨hlarge, -⟩ | ⟨laps, finish, p, s, scope', htour, hcompute, hlogged, -, -, -, -, hlt, hnever, -,
      -, -, hfew⟩
  · exact absurd hlarge (by decide)
  · obtain ⟨himprovements, hrounds⟩ := hfew rfl
    exact ⟨laps, finish, p, s, scope', htour, hcompute, hlogged, hnever (.of_poll_eq rfl), hlt,
      himprovements, hrounds⟩

end KCut.NeighborhoodSearch
