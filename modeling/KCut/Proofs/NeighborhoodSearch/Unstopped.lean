import KCut.Proofs.Course.Search
import KCut.Proofs.NeighborhoodSearch.Search

/-!
# KCut.Proofs.NeighborhoodSearch.Unstopped

A neighborhood search that nothing stops, against a plain local search from the same start.

A round of order zero does not perturb. From a candidate without a cost it hence finds what the
local search finds, and adopts it (`Hop.first`). The next round searches from there once more
and finds the same again, which is not strictly better: so with a maximal order of one this is
the end (`compute_of_maxOrder_le_one`), no word has been drawn (`compute_stream`), and with a
higher one the search goes on from there and never comes back to anything worse
(`compute_not_prefers`).
-/

namespace KCut

open LocalSearch (not_mem_answersFor_iff)

/-- **A local search that nothing stops** has a result, to which it has descended. -/
theorem LocalSearch.compute_unstopped {ls : LocalSearch Rat} (ready : ls.Ready)
    {w : Workspace Rat} (hw : w.Fits ls) {c : Candidate Rat}
    (hc : c.Sound ls.graph.nodeCount ls.k) {scope : Scope Rat}
    (hrunning : scope.termination.NeverFires) :
    (ls.compute w c).Gives scope fun r _ =>
      r.2.1.Fits ls ∧ ∃ rounds, ls.Descends c rounds false r.2.2 := by
  rcases compute_descends ready hw hc scope with hgives | ⟨fault, -, -, hendless⟩
  · refine hgives.mono fun r scope' hpost => ?_
    obtain ⟨hfits, rounds, stopped, hdescends, hquiet⟩ := hpost
    rw [not_mem_answersFor_iff.1 (hrunning.answers hquiet.asked)] at hdescends
    exact ⟨hfits, rounds, hdescends⟩
  · exact absurd hendless (not_endless ready)

namespace NeighborhoodSearch

/-! ### Without a draw -/

section

variable {α : Type} [Weight α] (vns : NeighborhoodSearch) (ls : LocalSearch α)

/-- A round of order zero draws nothing. -/
theorem round_stream {p : Progress α} (horder : p.order = 0) (scope : Scope α) :
    (vns.round ls p).Ensures scope fun _ scope' => scope'.stream = scope.stream := by
  rw [round, horder]
  simp only [perturbMany, Run.ensures_bind, Run.ensures_begin, Run.ensures_check,
    Run.ensures_pure]
  intro start _
  refine (LocalSearch.compute_went ls p.workspace start _).mono ?_
  intro searched scope₁ hpost
  obtain ⟨d, -, hstream, -⟩ := hpost
  simp only [Run.ensures_count, Run.ensures_note, Run.ensures_finish]
  exact hstream

variable (hsmall : vns.maxOrder ≤ 1)

include hsmall

theorem search_stream (bound : Nat) (p : Progress α) (scope : Scope α) :
    (vns.search ls bound p).Ensures scope fun _ scope' => scope'.stream = scope.stream := by
  induction bound generalizing p scope with
  | zero =>
      rw [search]
      split
      · exact Run.ensures_error
      · exact Run.ensures_pure.2 rfl
  | succ bound ih =>
      rw [search]
      split
      · next horder =>
        refine Run.ensures_bind.2 (Run.ensures_poll.2 ?_)
        split
        · exact Run.ensures_pure.2 rfl
        · refine Run.ensures_bind.2 ((round_stream vns ls (by omega) _).mono ?_)
          intro r scope₁ hround
          dsimp only
          split
          · exact (ih r.2 scope₁).mono fun _ _ hrest => hrest.trans hround
          · simp only [Run.ensures_bind, Run.ensures_count, Run.ensures_pure]
            exact hround
      · exact Run.ensures_pure.2 rfl

/-- **Searches of order zero and one draw nothing.** -/
theorem compute_stream (w : Workspace α) (neighbor best : Candidate α) (scope : Scope α) :
    (vns.compute ls w neighbor best).Ensures scope fun _ scope' =>
      scope'.stream = scope.stream := by
  rw [compute]
  by_cases hplain : vns.maxOrder = 0
  · simp only [if_pos hplain]
    refine Run.ensures_bind.2 ((LocalSearch.compute_went ls w best scope).mono ?_)
    intro r scope' hpost
    obtain ⟨d, -, hstream, -⟩ := hpost
    exact Run.ensures_pure.2 hstream
  · simp only [if_neg hplain, Run.ensures_bind, Run.ensures_begin]
    refine (search_stream vns ls hsmall _ _ _).mono ?_
    intro p scope' hsearched
    simp only [Run.ensures_finish, Run.ensures_note, Run.ensures_pure]
    exact hsearched

end

/-! ### The first round -/

variable {vns : NeighborhoodSearch} {ls : LocalSearch Rat} {p p' p'' : Progress Rat}
  {perturbed : Bool} {answers more : List Bool} {c found : Candidate Rat} {rounds : Nat}

/-- **The first round finds what a local search finds, and adopts it**: from a candidate without
a cost, at order zero. -/
theorem Hop.first (ready : ls.Ready) (h : Hop vns ls p perturbed answers p')
    (horder : p.order = 0) (hcost : p.best.cost = .worst) (hrunning : true ∉ answers) :
    perturbed = true ∧ (∃ rounds, ls.Descends p.best rounds false p'.best) ∧ p'.order = 0 ∧
      p'.outcome = { p.outcome with
        rounds := p.outcome.rounds + 1
        improvements := p.outcome.improvements + 1 } := by
  have hneighbor : ∀ {c}, Found ls p perturbed answers c →
      perturbed = true ∧ ∃ rounds, ls.Descends p.best rounds false c := by
    intro c hfound
    cases hfound with
    | intro _ hplain hdescends =>
        obtain ⟨hperturbed, hplaces⟩ := hplain horder
        rw [not_mem_answersFor_iff.1 hrunning] at hdescends
        exact ⟨hperturbed, _, hdescends.of_samePlaces hplaces⟩
  cases h with
  | adopted _ hfound _ => exact ⟨(hneighbor hfound).1, (hneighbor hfound).2, rfl, rfl⟩
  | kept _ hfound hworse =>
      rw [hcost, hfound.scored ready, vns.objective.prefers_of_worst_rat] at hworse
      exact nomatch hworse

/-- **Another round of order zero changes nothing** once a local search has led to the best
candidate. -/
theorem Hop.again (ready : ls.Ready) (h : Hop vns ls p perturbed answers p')
    (horder : p.order = 0) (hc : c.Sound ls.graph.nodeCount ls.k)
    (hbest : ls.Descends c rounds false p.best) (hrunning : true ∉ answers) :
    perturbed = true ∧ p'.best = p.best := by
  have hneighbor : ∀ {c}, Found ls p perturbed answers c → perturbed = true ∧ c = p.best := by
    intro c hfound
    cases hfound with
    | intro _ hplain hdescends =>
        obtain ⟨hperturbed, hplaces⟩ := hplain horder
        rw [not_mem_answersFor_iff.1 hrunning] at hdescends
        exact ⟨hperturbed, hbest.again ready hc hdescends hplaces⟩
  cases h with
  | adopted _ hfound _ => exact hneighbor hfound
  | kept _ hfound _ => exact ⟨(hneighbor hfound).1, rfl⟩

/-- While rounds are of order zero, the best candidate stays. -/
theorem Hops.again (ready : ls.Ready) (hone : vns.maxOrder = 1) (h : Hops vns ls p answers p')
    (hc : c.Sound ls.graph.nodeCount ls.k) (hbest : ls.Descends c rounds false p.best)
    (hrunning : true ∉ answers) : p'.best = p.best := by
  induction h with
  | refl p => rfl
  | head horder hhop _ ih =>
      simp only [List.mem_cons, List.mem_append, not_or] at hrunning
      obtain ⟨-, hcalm, hcalm'⟩ := hrunning
      obtain ⟨-, hsame⟩ := hhop.again ready (by omega) hc hbest hcalm
      rw [← hsame] at hbest
      exact (ih hbest hcalm').trans hsame

/-! ### Whole searches -/

/-- A search that nothing stops begins with a round that finds what a local search finds. -/
theorem Hops.begins (ready : ls.Ready) (hpos : 0 < vns.maxOrder)
    (hhops : Hops vns ls p answers p') (hending : Ending vns ls p' more p'') (horder : p.order = 0)
    (hcost : p.best.cost = .worst) (hrunning : true ∉ answers ++ more) :
    ∃ p₁ rest, (∃ rounds, ls.Descends p.best rounds false p₁.best) ∧ Hops vns ls p₁ rest p' ∧
      true ∉ rest ∧ true ∉ more := by
  rw [List.mem_append, not_or] at hrunning
  obtain ⟨hcalm, hcalm'⟩ := hrunning
  cases hhops with
  | refl =>
      -- At order zero there is a round to make, and it has nothing to perturb.
      cases hending with
      | done hdone => omega
      | stopped => simp at hcalm'
      | stuck _ hhop =>
          have hperturbed := (hhop.first ready horder hcost (by simpa using hcalm')).1
          exact nomatch hperturbed
  | head _ hhop hrest =>
      simp only [List.mem_cons, List.mem_append, not_or] at hcalm
      exact ⟨_, _, (hhop.first ready horder hcost hcalm.2.1).2.1, hrest, hcalm.2.2, hcalm'⟩

section

variable (h : Matches vns ls) {w : Workspace Rat} (hw : w.Fits ls) {neighbor best : Candidate Rat}
  (hneighbor : Spare ls neighbor) (hbest : best.Sound ls.graph.nodeCount ls.k)
  (hcost : best.cost = .worst) {scope : Scope Rat} (hrunning : scope.termination.NeverFires)

include h hw hneighbor hbest hcost hrunning

/-- **The first round of a search that nothing stops** has a result: it finds what a local
search finds and adopts it. -/
theorem round_unstopped (hpos : 0 < vns.maxOrder) :
    (vns.round ls ⟨w, best, neighbor, 0, ⟨0, 0, false⟩⟩).Gives scope fun r _ =>
      r.1 = true ∧ (∃ rounds, ls.Descends best rounds false r.2.best) ∧ r.2.order = 0 ∧
        r.2.outcome = ⟨1, 1, false⟩ := by
  have hp : Progress.Safe ls ⟨w, best, neighbor, 0, ⟨0, 0, false⟩⟩ := ⟨hw, hbest, hneighbor⟩
  rcases round_hops h hp hpos scope with hgives | ⟨fault, -, ⟨hzero, -⟩ | ⟨-, hendless⟩⟩
  · refine hgives.mono fun r scope' hpost => ?_
    obtain ⟨answers, hhop, hquiet⟩ := hpost
    exact hhop.first h.ready rfl hcost (hrunning.answers hquiet.asked)
  · exact absurd hzero (Nat.lt_irrefl 0)
  · exact absurd hendless (LocalSearch.not_endless h.ready)

/-- **With a maximal order of one at most**, a search that nothing stops gives what a local
search gives. -/
theorem compute_of_maxOrder_le_one (hsmall : vns.maxOrder ≤ 1) :
    (vns.compute ls w neighbor best).Gives scope fun r _ =>
      ∃ rounds, ls.Descends best rounds false r.2.2.2 := by
  rcases Nat.le_one_iff_eq_zero_or_eq_one.1 hsmall with hplain | hone
  · rw [compute]
    simp only [if_pos hplain, Run.gives_bind, Run.gives_pure]
    exact (LocalSearch.compute_unstopped h.ready hw hbest hrunning).mono fun r _ hpost => hpost.2
  rcases compute_hops h (by omega) hw hneighbor hbest scope with hgives | ⟨fault, -, hfault⟩
  · refine hgives.mono fun r scope' hpost => ?_
    obtain ⟨answers, p, more, p', hhops, -, hending, rfl, hquiet⟩ := hpost
    obtain ⟨p₁, rest, ⟨rounds, hfirst⟩, hrest, hcalm, hcalm'⟩ :=
      hhops.begins h.ready (by omega) hending rfl hcost (hrunning.answers hquiet.asked)
    have hsame := hrest.again h.ready hone hbest hfirst hcalm
    rw [← hsame] at hfirst
    refine ⟨rounds, ?_⟩
    cases hending with
    | done => exact hfirst
    | stopped => exact hfirst
    | stuck horder hhop =>
        have hperturbed := (hhop.again h.ready (by omega) hbest hfirst (by simpa using hcalm')).1
        cases hperturbed
  · have horder := (overflow_of_searchFault h hfault).1
    omega

/-- **A search in neighborhoods never ends with anything worse than a local search**, if
nothing stops it. -/
theorem compute_not_prefers (hpos : 0 < vns.maxOrder) (hfound : ls.Descends best rounds false found) :
    (vns.compute ls w neighbor best).GivesOr (Overflow vns.maxOrder ls.k) scope fun r _ =>
      ¬ vns.objective.prefers found.cost r.2.2.2.cost = true := by
  refine ((compute_hops h (by omega) hw hneighbor hbest scope).allow
    fun _ => overflow_of_searchFault h).mono ?_
  intro r scope' hpost
  obtain ⟨answers, p, more, p', hhops, -, hending, rfl, hquiet⟩ := hpost
  obtain ⟨p₁, rest, ⟨rounds, hfirst⟩, hrest, -⟩ :=
    hhops.begins h.ready hpos hending rfl hcost (hrunning.answers hquiet.asked)
  obtain rfl : p₁.best = found := hfound.unique h.ready hfirst ⟨rfl, rfl⟩
  intro hworse
  rcases vns.objective.prefers_or_prefers hworse p.best.cost.comparable_rat with hchain | hlast
  · exact hrest.not_prefers hchain
  · exact hending.not_prefers hlast

end

end NeighborhoodSearch

end KCut
