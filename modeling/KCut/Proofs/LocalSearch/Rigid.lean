import KCut.Proofs.Ensures
import KCut.Proofs.LocalSearch.Converge

/-!
# KCut.Proofs.LocalSearch.Rigid

Local searches in which no node can move.

With one community there is nowhere to go, and in communities without a node above their
minimums there is nobody who may leave. Such an assignment is `Rigid`. It is settled whatever
its affinities are, so a search that nothing stops makes one round, moves nothing and scores
the assignment (`compute_rigid`). What a search counts is in its outcome
(`computeOn_statistics`).
-/

namespace KCut

variable {α : Type}

/-- The scope `s'` is `s` some steps later, in which no trial was scored or became the best one;
`count` says what the steps have counted. -/
structure Scope.Calm (s : Scope α) (count : Statistics → Statistics) (s' : Scope α) : Prop where
  quiet : ∃ polls, s.Quiet polls s'
  statistics_eq : s'.statistics = count s.statistics

namespace Scope.Calm

variable {s s' s'' : Scope α} {count count' : Statistics → Statistics}

theorem trans (h : s.Calm count s') (h' : s'.Calm count' s'') : s.Calm (count' ∘ count) s'' := by
  obtain ⟨polls, hquiet⟩ := h.quiet
  obtain ⟨more, hquiet'⟩ := h'.quiet
  refine ⟨⟨polls ++ more, hquiet.trans hquiet'⟩, ?_⟩
  rw [h'.statistics_eq, h.statistics_eq, Function.comp_apply]

/-- A condition that never fires still does not. -/
theorem running (h : s.Calm count s') (hrunning : s.termination.NeverFires) :
    s'.termination.NeverFires := by
  obtain ⟨polls, hquiet⟩ := h.quiet
  exact hrunning.of_answers hquiet.asked

end Scope.Calm

namespace LocalSearch

/-! ### What a search counts -/

section

variable [Weight α] (ls : LocalSearch α)

theorem converge_statistics (schedule : Schedule) (bound : Nat) (p : Progress α)
    (scope : Scope α) :
    (ls.converge schedule bound p).Ensures scope fun _ scope' =>
      scope'.statistics = scope.statistics := by
  induction bound generalizing p scope with
  | zero =>
      rw [converge]
      split
      · exact Run.ensures_error
      · exact Run.ensures_pure.2 rfl
  | succ bound ih =>
      rw [converge]
      split
      · refine Run.ensures_bind.2 (Run.ensures_poll.2 ?_)
        split
        · exact Run.ensures_pure.2 rfl
        · simp only [round, Run.ensures_bind, Run.ensures_begin, Run.ensures_check,
            Run.ensures_finish, Run.ensures_note, Run.ensures_pure]
          intro table _ marks _ s _
          exact ih _ _
      · exact Run.ensures_pure.2 rfl

/-- **A search counts itself**, its rounds and the nodes that it has moved. -/
theorem computeOn_statistics (schedule : Schedule) (w : Workspace α) (c : Candidate α)
    (scope : Scope α) :
    (ls.computeOn schedule w c).Ensures scope fun r scope' =>
      scope'.statistics = scope.statistics.recordLocalSearch r.1.rounds r.1.swaps := by
  rw [computeOn]
  simp only [Run.ensures_bind, Run.ensures_begin]
  refine (converge_statistics ls _ _ _ _).mono fun p scope₁ hconverged => ?_
  simp only [evaluateIn, Run.ensures_bind, Run.ensures_begin, Run.ensures_check,
    Run.ensures_finish, Run.ensures_count, Run.ensures_pure]
  intro cost _
  rw [hconverged]

end

/-! ### Rigid assignments -/

/-- No node can move: there is no other community, or no community has a node to spare. -/
def Rigid (ls : LocalSearch α) (a : Assignment) : Prop :=
  ls.k < 2 ∨ ∀ c < ls.k, a.count c ≤ ls.minSizes.getD c 0

/-- The candidate with the weight of its cut in the cost cell. -/
def withCut (ls : LocalSearch Rat) (c : Candidate Rat) : Candidate Rat :=
  { c with cost := .of (ls.graph.cut c.assignment) }

variable {ls : LocalSearch Rat}

/-- Whatever the affinities are, no move is allowed. -/
theorem Rigid.settled {a : Assignment} (h : ls.Rigid a) (ha : a.Legal ls.graph.nodeCount ls.k)
    (table : Array Rat) : ls.Settled table a := by
  intro v hv c hc hne _
  have hhere := ha.community_lt hv
  rcases h with hone | hleast
  · omega
  · exact hleast _ hhere

/-- **A search from a rigid assignment** makes one round, which moves nothing, and scores the
assignment. -/
theorem compute_rigid (ready : ls.Ready) {w : Workspace Rat} (hw : w.Fits ls) {c : Candidate Rat}
    (hc : c.Sound ls.graph.nodeCount ls.k) (hrigid : ls.Rigid c.assignment) {scope : Scope Rat}
    (hrunning : scope.termination.NeverFires) :
    (ls.compute w c).Gives scope fun r scope' =>
      r.2.1.Fits ls ∧ r.2.2 = ls.withCut c ∧
        scope.Calm (fun s => s.recordLocalSearch 1 0) scope' := by
  obtain ⟨table, htable, -⟩ := affinities_eq ready hc.legal hw.size_affinities
  have hgives := computeOn_of_settled ready (fun _ => .refl ls.partitions) hw hc htable
    (hrigid.settled hc.legal table) hrunning.poll.1
  have hdescends := (compute_descends ready hw hc scope).ensures
  have hcounts := computeOn_statistics ls ls.inOrder w c scope
  refine ((hgives.and hdescends).and hcounts).mono ?_
  rintro ⟨outcome, w', assignment, tally, score⟩ scope'
    ⟨⟨⟨rfl, rfl, rfl, cost, hcost, rfl⟩, hw', rounds, stopped, -, hquiet⟩, hstatistics⟩
  have hcut := costIn_eq ready.graph hc.legal.size_eq
    (ready.perm_nodes (List.Perm.refl ls.partitions))
  obtain rfl : cost = ls.graph.cut c.assignment := Except.ok.inj (hcost.symm.trans hcut)
  exact ⟨hw', rfl, ⟨_, hquiet⟩, hstatistics⟩

end LocalSearch

end KCut
