import KCut.Proofs.LocalSearch.Rigid
import KCut.Proofs.NeighborhoodSearch.Search

/-!
# KCut.Proofs.NeighborhoodSearch.Rigid

Neighborhood searches in which no node can move.

From a rigid assignment every perturbation draws as many nodes as it may and fails
(`perturbMany_rigid`), so all neighbors are the best candidate itself. The first round adopts it,
since it is scored; the second one finds nothing better; and the third one, the first that has to
perturb, is stuck (`search_rigid`). With a maximal order of one there is no third round.
-/

namespace KCut.NeighborhoodSearch

/-! ### Perturbations -/

section

variable {α : Type} [Weight α] {vns : NeighborhoodSearch} {ls : LocalSearch α} {c : Candidate α}
  (h : Matches vns ls) (hc : c.Sound ls.graph.nodeCount ls.k) (hrigid : ls.Rigid c.assignment)

include h hc hrigid

/-- **A perturbation of a rigid assignment changes nothing but the stream**, and fails. -/
theorem perturb_rigid (scope : Scope α) :
    (vns.perturb c).Gives scope fun r scope' =>
      r = (false, c) ∧ ∃ stream, scope' = { scope with stream } := by
  have hstay : ∀ v < c.assignment.size, vns.Stays c v := by
    intro v hv
    rw [Stays, h.k_eq, h.minSizes_eq]
    exact hrigid.symm.imp_left fun hleast =>
      hleast _ (hc.legal.community_lt (hc.legal.size_eq ▸ hv))
  rcases perturb_gives (h.k_eq ▸ hc) h.le_size_minSizes h.ready.nodeCount_lt h.k_le scope with
    hgives | ⟨_, -, -, ⟨v, hv, hfree⟩, -⟩
  · refine hgives.mono fun r scope' hpost => ?_
    obtain ⟨stream, hscope, hattempted⟩ := hpost
    exact ⟨hattempted.eq_of_stays hstay, stream, hscope⟩
  · exact absurd (hstay v hv) hfree

/-- So do several of them, unless there are none. -/
theorem perturbMany_rigid (count : Nat) (scope : Scope α) :
    (vns.perturbMany count c).Gives scope fun r scope' =>
      r = (decide (count = 0), c) ∧ ∃ stream, scope' = { scope with stream } := by
  cases count with
  | zero =>
      rw [perturbMany]
      exact Run.gives_pure.2 ⟨rfl, _, rfl⟩
  | succ count =>
      rw [perturbMany]
      refine Run.gives_bind.2 ((perturb_rigid h hc hrigid scope).mono ?_)
      rintro _ _ ⟨rfl, stream, rfl⟩
      exact Run.gives_pure.2 ⟨rfl, stream, rfl⟩

end

/-! ### Rounds -/

variable {vns : NeighborhoodSearch} {ls : LocalSearch Rat}

/-- What a round counts in which no node can move. -/
def countRound (improved : Bool) (s : Statistics) : Statistics :=
  (s.recordLocalSearch 1 0).recordVnsRound improved

section

variable (h : Matches vns ls) {p : Progress Rat} (hp : p.Safe ls)
  (hrigid : ls.Rigid p.best.assignment) {scope : Scope Rat}
  (hrunning : scope.termination.NeverFires)

include h hp hrigid hrunning

/-- **The neighbor of a rigid candidate** is the candidate itself with its cut. -/
theorem round_rigid :
    (vns.round ls p).Gives scope fun r scope' => ∃ w : Workspace Rat, w.Fits ls ∧
      let settled := vns.settle { p with workspace := w, neighbor := ls.withCut p.best }
      r = (decide (p.order = 0), settled.2) ∧ scope.Calm (countRound settled.1) scope' := by
  have hcopy : Candidate.Sound { p.neighbor with
      assignment := p.best.assignment
      tally := p.best.tally } ls.graph.nodeCount ls.k := ⟨hp.best.legal, hp.best.agrees⟩
  rw [round]
  simp only [Run.gives_bind, Run.gives_begin, Run.gives_check (copyBest_eq hp.best hp.neighbor)]
  refine (perturbMany_rigid h hcopy hrigid p.order _).mono ?_
  rintro _ _ ⟨rfl, stream, rfl⟩
  refine Run.Gives.mono (LocalSearch.compute_rigid h.ready hp.fits hcopy hrigid hrunning) ?_
  rintro ⟨outcome, w, c⟩ scope₁ ⟨hw, rfl, hcalm⟩
  obtain ⟨polls, hquiet⟩ := hcalm.quiet
  simp only [Run.gives_count, Run.gives_note, Run.gives_finish, Run.gives_pure]
  have hround := (((Scope.Quiet.refl scope).task (.began (.vnsRound p.order))).drawn stream).trans
    hquiet
  refine ⟨w, hw, rfl, ⟨_, ((hround.counted ?_).noted _).task _⟩, ?_⟩
  · exact Statistics.bestImprovements_recordVnsRound _ _
  · exact congrArg (fun s : Statistics => s.recordVnsRound _) hcalm.statistics_eq

/-- A candidate without a cost is adopted with its cut. -/
theorem round_rigid_of_worst (hcost : p.best.cost = .worst) :
    (vns.round ls p).Gives scope fun r scope' => ∃ w : Workspace Rat, w.Fits ls ∧
      r = (decide (p.order = 0), ⟨w, ls.withCut p.best, ls.withCut p.best, 0,
        { p.outcome with
          rounds := p.outcome.rounds + 1
          improvements := p.outcome.improvements + 1 }⟩) ∧
      scope.Calm (countRound true) scope' := by
  refine (round_rigid h hp hrigid hrunning).mono ?_
  rintro r scope' ⟨w, hw, hr, hcalm⟩
  have hbetter : vns.objective.prefers (ls.withCut p.best).cost p.best.cost = true := by
    rw [hcost]
    exact vns.objective.prefers_of_worst_rat _
  simp only [settle, hbetter, if_true] at hr hcalm
  exact ⟨w, hw, hr, hcalm⟩

/-- A candidate with its cut stays, and the neighbor is a copy of it. -/
theorem round_rigid_of_scored (hscored : ls.withCut p.best = p.best) :
    (vns.round ls p).Gives scope fun r scope' => ∃ w : Workspace Rat, w.Fits ls ∧
      r = (decide (p.order = 0), ⟨w, p.best, p.best, p.order + 1,
        { p.outcome with rounds := p.outcome.rounds + 1 }⟩) ∧
      scope.Calm (countRound false) scope' := by
  refine (round_rigid h hp hrigid hrunning).mono ?_
  rintro r scope' ⟨w, hw, hr, hcalm⟩
  have hworse : vns.objective.prefers p.best.cost p.best.cost = false :=
    Bool.eq_false_iff.2 (vns.objective.not_prefers_self _)
  simp only [settle, hscored, hworse, Bool.false_eq_true, if_false] at hr hcalm
  exact ⟨w, hw, hr, hcalm⟩

end

/-! ### Searches -/

/-- What a search of the given maximal order does if no node can move. -/
def rigidOutcome : (maxOrder : Nat) → VnsOutcome
  | 0 => ⟨0, 0, false⟩
  | 1 => ⟨2, 1, false⟩
  | _ => ⟨3, 1, true⟩

/-- What such a search counts. -/
def rigidCount : (maxOrder : Nat) → Statistics → Statistics
  | 0, s => s.recordLocalSearch 1 0
  | 1, s => countRound false (countRound true s)
  | _, s => (countRound false (countRound false (countRound true s))).recordVnsStuck

/-- Nothing stops a search in front of its next round. -/
theorem search_goes_on {bound : Nat} {p : Progress Rat} (horder : p.order < vns.maxOrder)
    {scope : Scope Rat} (hrunning : scope.termination.NeverFires)
    {post : Progress Rat → Scope Rat → Prop}
    (hround : ∀ scope₁, scope.Calm id scope₁ → (vns.round ls p).Gives scope₁ fun r scope₂ =>
      if r.1 then (vns.search ls bound r.2).Gives scope₂ post
      else post { r.2 with outcome := { r.2.outcome with stuck := true } }
        { scope₂ with statistics := scope₂.statistics.recordVnsStuck }) :
    (vns.search ls (bound + 1) p).Gives scope post := by
  rw [search, if_pos horder]
  refine Run.gives_bind.2 (Run.gives_poll.2 ?_)
  have hpolled := (Scope.Quiet.refl scope).polled scope.stream.position
  rw [hrunning.poll.1] at hpolled ⊢
  refine Run.gives_bind.2 ((hround _ ⟨⟨_, hpolled⟩, rfl⟩).mono ?_)
  rintro ⟨perturbed, p₁⟩ scope₂ hrest
  cases perturbed with
  | true => exact hrest
  | false => exact Run.gives_bind.2 (Run.gives_count.2 (Run.gives_pure.2 hrest))

section

variable (h : Matches vns ls) {w : Workspace Rat} (hw : w.Fits ls) {neighbor best : Candidate Rat}
  (hneighbor : Spare ls neighbor) (hbest : best.Sound ls.graph.nodeCount ls.k)
  (hcost : best.cost = .worst) (hrigid : ls.Rigid best.assignment) {scope : Scope Rat}
  (hrunning : scope.termination.NeverFires)

include h hw hneighbor hbest hcost hrigid hrunning

/-- **A search from a rigid candidate** adopts it with its cut in the first round, finds it again
in the second one and is stuck in the third one, unless that is beyond the maximal order. -/
theorem search_rigid (horder : 0 < vns.maxOrder) {bound : Nat} :
    (vns.search ls (bound + 3) ⟨w, best, neighbor, 0, ⟨0, 0, false⟩⟩).Gives scope
      fun p scope' => p.workspace.Fits ls ∧ Spare ls p.neighbor ∧ p.best = ls.withCut best ∧
        p.outcome = rigidOutcome vns.maxOrder ∧
        scope.Calm (rigidCount vns.maxOrder) scope' := by
  have hsound : (ls.withCut best).Sound ls.graph.nodeCount ls.k := ⟨hbest.legal, hbest.agrees⟩
  have hspare : Spare ls (ls.withCut best) := spare_of_sound hsound
  refine search_goes_on horder hrunning fun scope₁ hcalm₁ => ?_
  refine (round_rigid_of_worst h ⟨hw, hbest, hneighbor⟩ hrigid (hcalm₁.running hrunning)
    hcost).mono ?_
  rintro _ scope₂ ⟨w₁, hw₁, rfl, hfirst⟩
  replace hfirst := hcalm₁.trans hfirst
  show (vns.search ls (bound + 2)
    ⟨w₁, ls.withCut best, ls.withCut best, 0, ⟨1, 1, false⟩⟩).Gives scope₂ _
  refine search_goes_on horder (hfirst.running hrunning) fun scope₃ hcalm₃ => ?_
  replace hcalm₃ := hfirst.trans hcalm₃
  refine (round_rigid_of_scored h ⟨hw₁, hsound, hspare⟩ hrigid (hcalm₃.running hrunning)
    rfl).mono ?_
  rintro _ scope₄ ⟨w₂, hw₂, rfl, hsecond⟩
  replace hsecond := hcalm₃.trans hsecond
  show (vns.search ls (bound + 1)
    ⟨w₂, ls.withCut best, ls.withCut best, 1, ⟨2, 1, false⟩⟩).Gives scope₄ _
  match hmax : vns.maxOrder with
  | 0 => omega
  | 1 =>
      -- The order has come to its maximum.
      have hlast : ¬ 1 < vns.maxOrder := by omega
      rw [search, if_neg hlast]
      exact Run.gives_pure.2 ⟨hw₂, hspare, rfl, rfl, hsecond⟩
  | maxOrder + 2 =>
      have hone : 1 < vns.maxOrder := by omega
      refine search_goes_on hone (hsecond.running hrunning) fun scope₅ hcalm₅ => ?_
      replace hcalm₅ := hsecond.trans hcalm₅
      refine (round_rigid_of_scored h ⟨hw₂, hsound, hspare⟩ hrigid
        (hcalm₅.running hrunning) rfl).mono ?_
      rintro _ scope₆ ⟨w₃, hw₃, rfl, hthird⟩
      obtain ⟨⟨polls, hquiet⟩, hstatistics⟩ := hcalm₅.trans hthird
      exact ⟨hw₃, hspare, rfl, rfl, ⟨polls, hquiet.counted rfl⟩,
        congrArg Statistics.recordVnsStuck hstatistics⟩

/-- **A neighborhood search from a rigid candidate** scores it and changes nothing else. -/
theorem compute_rigid (hpos : 0 < ls.graph.nodeCount) :
    (vns.compute ls w neighbor best).Gives scope fun r scope' =>
      r.1 = rigidOutcome vns.maxOrder ∧ r.2.1.Fits ls ∧ Spare ls r.2.2.1 ∧
        r.2.2.2 = ls.withCut best ∧ scope.Calm (rigidCount vns.maxOrder) scope' := by
  rw [compute]
  by_cases hplain : vns.maxOrder = 0
  · simp only [hplain, if_true]
    refine Run.gives_bind.2
      ((LocalSearch.compute_rigid h.ready hw hbest hrigid hrunning).mono ?_)
    rintro ⟨outcome, w', c⟩ scope' ⟨hw', rfl, hcalm⟩
    exact Run.gives_pure.2 ⟨rfl, hw', hneighbor, rfl, hcalm⟩
  · have hk : 0 < ls.k := Nat.lt_of_le_of_lt (Nat.zero_le _) (hbest.legal.community_lt hpos)
    obtain ⟨bound, hbound⟩ : ∃ bound, vns.roundBound ls = bound + 3 := by
      have hpow : 0 < ls.k ^ ls.graph.nodeCount := Nat.pow_pos hk
      have hmul := Nat.mul_le_mul (Nat.pos_of_ne_zero hplain)
        (show 3 ≤ ls.k ^ ls.graph.nodeCount + 2 by omega)
      refine ⟨vns.roundBound ls - 3, ?_⟩
      rw [roundBound, Nat.pow_eq]
      omega
    simp only [if_neg hplain, hbound, Run.gives_bind, Run.gives_begin]
    refine Run.Gives.mono (search_rigid h hw hneighbor hbest hcost hrigid ?running
      (Nat.pos_of_ne_zero hplain)) ?_
    case running => exact hrunning
    rintro p scope₁ ⟨hw₁, hneighbor₁, hbest₁, houtcome, ⟨polls, hquiet⟩, hstatistics⟩
    simp only [Run.gives_finish, Run.gives_note, Run.gives_pure]
    have hstart := (Scope.Quiet.refl scope).task (.began .variableNeighborhoodSearch)
    exact ⟨houtcome, hw₁, hneighbor₁, hbest₁, ⟨_, ((hstart.trans hquiet).task _).noted _⟩,
      hstatistics⟩

end

end KCut.NeighborhoodSearch
