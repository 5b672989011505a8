import KCut.Proofs.LocalSearch.Descent
import KCut.Proofs.NeighborhoodSearch.Perturb

/-!
# KCut.Proofs.NeighborhoodSearch.Hops

The rounds of a neighborhood search, whatever the weights are.

`Hop` describes a round apart from the run that it takes place in: a neighbor is found, and it
changes places with the best candidate if it is better. A search is a chain of such rounds
(`Hops`) and an `Ending`: the order has reached its maximum, a poll has stopped the search, or
no node could be perturbed (`search_hops`). A round keeps the best candidate sound and takes no
node from a community that is not above its minimum, so a search does not either.
-/

namespace KCut.NeighborhoodSearch

open LocalSearch (answersFor)

variable {α : Type} [Weight α] {vns : NeighborhoodSearch} {ls : LocalSearch α}

/-- Between two rounds the best candidate is legal and counted, and the buffers fit. -/
structure Progress.Safe (ls : LocalSearch α) (p : Progress α) : Prop where
  fits : p.workspace.Fits ls
  best : p.best.Sound ls.graph.nodeCount ls.k
  neighbor : Spare ls p.neighbor

/-! ### Rounds -/

/-- A round finds the neighbor `c`: it perturbs the best candidate, unless its order is zero,
and a local search goes on from there, with these answers to its polls. -/
inductive Found (ls : LocalSearch α) (p : Progress α) : Bool → List Bool → Candidate α → Prop
  | intro {perturbed stopped : Bool} {start c : Candidate α} {rounds : Nat}
      (hstart : Perturbed ls p.best start)
      (hplain : p.order = 0 → perturbed = true ∧ p.best.SamePlaces start)
      (hdescends : ls.Descends start rounds stopped c) :
      Found ls p perturbed (answersFor rounds stopped) c

/-- The state one round after `p`. -/
inductive Hop (vns : NeighborhoodSearch) (ls : LocalSearch α) (p : Progress α) :
    Bool → List Bool → Progress α → Prop
  | adopted {perturbed : Bool} {answers : List Bool} {w : Workspace α} {c : Candidate α}
      (hw : w.Fits ls) (hfound : Found ls p perturbed answers c)
      (hbetter : vns.objective.prefers c.cost p.best.cost = true) :
      Hop vns ls p perturbed answers
        { workspace := w
          best := c
          neighbor := { p.best with cost := c.cost }
          order := 0
          outcome := { p.outcome with
            rounds := p.outcome.rounds + 1
            improvements := p.outcome.improvements + 1 } }
  | kept {perturbed : Bool} {answers : List Bool} {w : Workspace α} {c : Candidate α}
      (hw : w.Fits ls) (hfound : Found ls p perturbed answers c)
      (hworse : vns.objective.prefers c.cost p.best.cost = false) :
      Hop vns ls p perturbed answers
        { workspace := w
          best := p.best
          neighbor := c
          order := p.order + 1
          outcome := { p.outcome with rounds := p.outcome.rounds + 1 } }

/-- Settling is the last step of a round. -/
theorem settle_hop {p : Progress α} {perturbed : Bool} {answers : List Bool} {w : Workspace α}
    {c : Candidate α} (hw : w.Fits ls) (hfound : Found ls p perturbed answers c) :
    Hop vns ls p perturbed answers (vns.settle { p with workspace := w, neighbor := c }).2 := by
  unfold settle
  cases hbetter : vns.objective.prefers c.cost p.best.cost with
  | true =>
      simp only [if_true]
      exact .adopted hw hfound hbetter
  | false =>
      simp only [Bool.false_eq_true, if_false]
      exact .kept hw hfound hbetter

theorem Hop.rounds_eq {p p' : Progress α} {perturbed : Bool} {answers : List Bool}
    (h : Hop vns ls p perturbed answers p') : p'.outcome.rounds = p.outcome.rounds + 1 := by
  cases h with
  | adopted => rfl
  | kept => rfl

section

variable [Weight.Ordered α] {p p' : Progress α} {perturbed : Bool} {answers : List Bool}
  {c : Candidate α} (ready : ls.Ready)

include ready

theorem Found.sound (h : Found ls p perturbed answers c) :
    c.Sound ls.graph.nodeCount ls.k := by
  cases h with
  | intro hstart _ hdescends => exact hdescends.sound ready hstart.sound

/-- Neither the perturbation nor the search takes a node from a community that is not above
its minimum. -/
theorem Found.spares (h : Found ls p perturbed answers c) :
    Assignment.Spares ls.minSizes ls.k p.best.assignment c.assignment := by
  cases h with
  | intro hstart _ hdescends => exact hstart.spares.trans (hdescends.spares ready)

theorem Hop.safe (h : Hop vns ls p perturbed answers p') (hp : p.Safe ls) : p'.Safe ls := by
  cases h with
  | adopted hw hfound =>
      exact ⟨hw, hfound.sound ready, ⟨hp.best.legal.size_eq, hp.best.agrees.size_eq⟩⟩
  | kept hw hfound => exact ⟨hw, hp.best, spare_of_sound (hfound.sound ready)⟩

theorem Hop.spares (h : Hop vns ls p perturbed answers p') :
    Assignment.Spares ls.minSizes ls.k p.best.assignment p'.best.assignment := by
  cases h with
  | adopted _ hfound => exact hfound.spares ready
  | kept => exact .refl _

end

/-- What a round of the given order may end in, if it has no result. -/
def RoundFault (vns : NeighborhoodSearch) (ls : LocalSearch α) (order : Nat) (fault : Fault) :
    Prop :=
  0 < order ∧ Overflow vns.maxOrder ls.k fault ∨ fault = .boundExceeded ∧ ls.Endless

/-- **A round has a result**, unless two community ids overflow or its local search has no
end. -/
theorem round_hops [Weight.Ordered α] (h : Matches vns ls) {p : Progress α} (hp : p.Safe ls)
    (horder : p.order < vns.maxOrder) (scope : Scope α) :
    (vns.round ls p).GivesOr (RoundFault vns ls p.order) scope fun r scope' =>
      ∃ answers, Hop vns ls p r.1 answers r.2 ∧ scope.Quiet answers scope' := by
  have hcopy : Candidate.Sound { p.neighbor with
      assignment := p.best.assignment
      tally := p.best.tally } ls.graph.nodeCount ls.k := ⟨hp.best.legal, hp.best.agrees⟩
  rw [round]
  refine Run.Gives.bindOr (Run.gives_begin.2 ?_)
  refine Run.Gives.bindOr ((Run.gives_check (copyBest_eq hp.best hp.neighbor)).2 ?_)
  refine ((perturbMany_gives h (fun _ => by omega) hcopy _).allow fun _ => Or.inl).bind ?_
  intro r scope₁ hpost
  obtain ⟨perturbed, start⟩ := r
  obtain ⟨hperturbed, hplain, hquiet₁⟩ := hpost
  refine ((LocalSearch.compute_descends h.ready hp.fits hperturbed.sound scope₁).allow
    fun _ => Or.inr).bind ?_
  intro searched scope₂ hpost
  obtain ⟨outcome, w, c⟩ := searched
  obtain ⟨hw, rounds, stopped, hdescends, hquiet₂⟩ := hpost
  have hfound : Found ls p perturbed (answersFor rounds stopped) c := by
    refine .intro ⟨hperturbed.sound, hperturbed.spares⟩ (fun hzero => ?_) hdescends
    cases hplain hzero
    exact ⟨rfl, rfl, rfl⟩
  refine Or.inl ?_
  simp only [Run.gives_bind, Run.gives_count, Run.gives_note, Run.gives_finish, Run.gives_pure]
  have hround := (((Scope.Quiet.refl scope).task (.began (.vnsRound p.order))).trans
    hquiet₁).trans hquiet₂
  exact ⟨_, settle_hop hw hfound,
    ((hround.counted (Statistics.bestImprovements_recordVnsRound _ _)).noted _).task _⟩

/-! ### Searches -/

/-- The rounds that lead from one state to another, each of them with nodes to perturb, and
the answers to the polls before and within them. -/
inductive Hops (vns : NeighborhoodSearch) (ls : LocalSearch α) :
    Progress α → List Bool → Progress α → Prop
  | refl (p : Progress α) : Hops vns ls p [] p
  | head {p p' p'' : Progress α} {answers more : List Bool} (horder : p.order < vns.maxOrder)
      (hhop : Hop vns ls p true answers p') (hrest : Hops vns ls p' more p'') :
      Hops vns ls p (false :: (answers ++ more)) p''

/-- How the search ends behind its last complete round. -/
inductive Ending (vns : NeighborhoodSearch) (ls : LocalSearch α) (p : Progress α) :
    List Bool → Progress α → Prop
  /-- The order has reached its maximum. -/
  | done (horder : ¬ p.order < vns.maxOrder) : Ending vns ls p [] p
  /-- A poll has stopped the search. -/
  | stopped (horder : p.order < vns.maxOrder) : Ending vns ls p [true] p
  /-- One more round has not found enough nodes to perturb. -/
  | stuck {p' : Progress α} {answers : List Bool} (horder : p.order < vns.maxOrder)
      (hhop : Hop vns ls p false answers p') :
      Ending vns ls p (false :: answers) { p' with outcome := { p'.outcome with stuck := true } }

/-- What a search of so many rounds may end in, if it has no result. -/
def SearchFault (vns : NeighborhoodSearch) (ls : LocalSearch α) (bound : Nat) (p : Progress α)
    (fault : Fault) : Prop :=
  (∃ order, RoundFault vns ls order fault) ∨
    fault = .boundExceeded ∧ ∃ answers p', Hops vns ls p answers p' ∧ p'.order < vns.maxOrder ∧
      p'.outcome.rounds = p.outcome.rounds + bound

section

variable [Weight.Ordered α] (h : Matches vns ls)

include h

/-- **A search is a chain of rounds and an ending**, if it has a result. -/
theorem search_hops {bound : Nat} {p : Progress α} (hp : p.Safe ls) (scope : Scope α) :
    (vns.search ls bound p).GivesOr (SearchFault vns ls bound p) scope fun r scope' =>
      ∃ answers p' more, Hops vns ls p answers p' ∧ p'.Safe ls ∧ Ending vns ls p' more r ∧
        scope.Quiet (answers ++ more) scope' := by
  induction bound generalizing p scope with
  | zero =>
      rw [search]
      split
      · next horder => exact Or.inr ⟨_, rfl, Or.inr ⟨rfl, [], p, .refl p, horder, rfl⟩⟩
      · next horder =>
        exact Or.inl (Run.gives_pure.2 ⟨[], p, [], .refl p, hp, .done horder, .refl scope⟩)
  | succ bound ih =>
      rw [search]
      split
      · next horder =>
        refine Run.Gives.bindOr (Run.gives_poll.2 ?_)
        have hpolled := (Scope.Quiet.refl scope).polled scope.stream.position
        cases hstop : scope.termination.poll.1 with
        | true =>
            rw [hstop] at hpolled
            exact Or.inl (Run.gives_pure.2
              ⟨[], p, [true], .refl p, hp, .stopped horder, hpolled⟩)
        | false =>
            rw [hstop] at hpolled
            refine ((round_hops h hp horder _).allow fun _ hfault => Or.inl ⟨_, hfault⟩).bind ?_
            intro r scope₁ hpost
            obtain ⟨perturbed, p₁⟩ := r
            obtain ⟨answers, hhop, hquiet⟩ := hpost
            cases perturbed with
            | true =>
                have hrounds := hhop.rounds_eq
                refine ((ih (hhop.safe h.ready hp) scope₁).allow fun fault hfault => ?_).mono ?_
                · refine hfault.imp_right fun hbound => ?_
                  obtain ⟨heq, more, p₂, hrest, horder₂, hcount⟩ := hbound
                  exact ⟨heq, _, p₂, .head horder hhop hrest, horder₂, by omega⟩
                · intro r scope₂ hpost
                  obtain ⟨rest, p₂, more, hrest, hp₂, hending, hquiet'⟩ := hpost
                  refine ⟨_, p₂, more, .head horder hhop hrest, hp₂, hending, ?_⟩
                  simpa using (hpolled.trans hquiet).trans hquiet'
            | false =>
                refine Or.inl ?_
                simp only [Bool.false_eq_true, if_false, Run.gives_bind, Run.gives_count,
                  Run.gives_pure]
                exact ⟨[], p, _, .refl p, hp, .stuck horder hhop,
                  (hpolled.trans hquiet).counted rfl⟩
      · next horder =>
        exact Or.inl (Run.gives_pure.2 ⟨[], p, [], .refl p, hp, .done horder, .refl scope⟩)

/-- The same for a whole search in neighborhoods. -/
theorem compute_hops (hpos : vns.maxOrder ≠ 0) {w : Workspace α} (hw : w.Fits ls)
    {neighbor best : Candidate α} (hneighbor : Spare ls neighbor)
    (hbest : best.Sound ls.graph.nodeCount ls.k) (scope : Scope α) :
    (vns.compute ls w neighbor best).GivesOr
      (SearchFault vns ls (vns.roundBound ls) ⟨w, best, neighbor, 0, ⟨0, 0, false⟩⟩) scope
      fun r scope' => ∃ answers p more p',
        Hops vns ls ⟨w, best, neighbor, 0, ⟨0, 0, false⟩⟩ answers p ∧ p.Safe ls ∧
        Ending vns ls p more p' ∧ r = (p'.outcome, p'.workspace, p'.neighbor, p'.best) ∧
        scope.Quiet (answers ++ more) scope' := by
  rw [compute]
  simp only [if_neg hpos]
  refine Run.Gives.bindOr (Run.gives_begin.2 ?_)
  refine (search_hops h ⟨hw, hbest, hneighbor⟩ _).bind ?_
  intro p' scope' hpost
  obtain ⟨answers, p, more, hhops, hp, hending, hquiet⟩ := hpost
  refine Or.inl ?_
  simp only [Run.gives_bind, Run.gives_finish, Run.gives_note, Run.gives_pure]
  have hstart := (Scope.Quiet.refl scope).task (.began .variableNeighborhoodSearch)
  exact ⟨answers, p, more, p', hhops, hp, hending, rfl, ((hstart.trans hquiet).task _).noted _⟩

/-- The last state is safe as well. -/
theorem Ending.safe {p p' : Progress α} {answers : List Bool} (hending : Ending vns ls p answers p')
    (hp : p.Safe ls) : p'.Safe ls := by
  cases hending with
  | done => exact hp
  | stopped => exact hp
  | stuck _ hhop =>
      have hsafe := hhop.safe h.ready hp
      exact ⟨hsafe.fits, hsafe.best, hsafe.neighbor⟩

end

end KCut.NeighborhoodSearch
