import KCut.Proofs.LocalSearch.Rounds
import KCut.Proofs.Twins.LocalSearch

/-!
# KCut.Proofs.LocalSearch.FixedPoint

What it means that a local search has converged.

A search has converged iff its last round has moved nothing. No node has then been kept
back by a neighbor, since none has moved: whoever would gain from a move lives in a community
that cannot spare it. The table of that round is the one of the assignment that the search
returns, and the next search fills the same table again, whatever is in its buffers. So it
finds nothing to move either (`Rounds.of_settled`), and ends after one round.
-/

namespace KCut.LocalSearch

variable {α : Type} [Weight α] {ls : LocalSearch α}

/-- What a table held before it was filled plays no part in it. -/
theorem affinities_unique (ready : ls.Ready) {a : Assignment}
    (ha : a.Legal ls.graph.nodeCount ls.k) {buffer table : Array α}
    (hbuffer : buffer.size = ls.graph.nodeCount * ls.k) (htable : ls.affinities a buffer = .ok table)
    {buffer' : Array α} (hbuffer' : buffer'.size = ls.graph.nodeCount * ls.k) :
    ls.affinities a buffer' = .ok table := by
  obtain ⟨t, hfirst, hsecond, -⟩ := (Twins.refl ready).affinities_eq ha hbuffer hbuffer'
  obtain rfl : t = table := Except.ok.inj (hfirst.symm.trans htable)
  rw [hsecond, Array.map_id]

variable {schedule : Schedule}

/-- **From a settled assignment** there is one more round at most, and it moves nothing. -/
theorem Rounds.of_settled {p p' : Progress α} (ready : ls.Ready) (h : Rounds ls schedule p p')
    {table : Array α}
    (htable : ls.affinities p.assignment p.workspace.affinities = .ok table)
    (hsettled : ls.Settled table p.assignment) :
    p' = p ∨ Sweep ls (schedule p.rounds) p p' ∧ p'.changed = false := by
  cases h with
  | refl p => exact Or.inl rfl
  | @head _ p₁ _ _ hsweep hrest =>
      obtain rfl : p₁.workspace.affinities = table :=
        Except.ok.inj (hsweep.computed.symm.trans htable)
      have hidle : p₁.changed = false := by
        rw [hsweep.changed_eq, hsweep.moved_eq_nil_of_settled ready hsettled]
        rfl
      rw [hrest.eq_of_not_changed hidle]
      exact Or.inr ⟨hsweep, hidle⟩

variable [Weight.Ordered α]

/-- **A search from a settled assignment** that may make a round makes one, which moves
nothing, and scores the assignment. -/
theorem computeOn_of_settled (ready : ls.Ready)
    (hschedule : ∀ i, (schedule i).Perm ls.partitions) {w : Workspace α} (hw : w.Fits ls)
    {c : Candidate α} (hc : c.Sound ls.graph.nodeCount ls.k) {table : Array α}
    (htable : ls.affinities c.assignment w.affinities = .ok table)
    (hsettled : ls.Settled table c.assignment) {scope : Scope α}
    (hpoll : scope.termination.poll.1 = false) :
    (ls.computeOn schedule w c).Gives scope fun r _ =>
      r.1 = ⟨1, 0, true⟩ ∧ r.2.2.assignment = c.assignment ∧ r.2.2.tally = c.tally ∧
        ∃ cost, ls.costIn (schedule 1) c.assignment = .ok cost ∧ r.2.2.cost = .of cost := by
  rcases computeOn_rounds ready hschedule hw hc scope with hgives | ⟨fault, -, -, p, hmore⟩
  · refine hgives.mono fun r scope' hpost => ?_
    obtain ⟨p, cost, hrounds, hcost, rfl, hquiet, -⟩ := hpost
    rcases hrounds.of_settled ready htable hsettled with rfl | ⟨hsweep, hidle⟩
    · -- The search would have been stopped by its first poll.
      have hstop := hquiet.asked.head_eq
      rw [hpoll] at hstop
      exact nomatch hstop
    · have hassignment := hsweep.assignment_eq_of_not_changed ready hidle
      have hmoved := hsweep.moved_eq_nil hidle
      have htally : p.tally = c.tally := by
        have hsound := hsweep.sound ready
        have hagrees := hsound.agrees
        rw [hassignment] at hagrees
        exact hagrees.unique hc.agrees
      have hrounds_eq := hsweep.rounds_eq
      have hswaps_eq := hsweep.swaps_eq
      rw [hmoved] at hswaps_eq
      simp only [Nat.zero_add, List.length_nil] at hrounds_eq hswaps_eq
      rw [hrounds_eq, hassignment] at hcost
      exact ⟨by rw [hrounds_eq, hswaps_eq, hidle]; rfl, hassignment, htally, cost, hcost, rfl⟩
  · exfalso
    obtain ⟨hrounds, hchanged, hcount⟩ := hmore
    rcases hrounds.of_settled ready htable hsettled with rfl | ⟨-, hidle⟩
    · exact Nat.ne_of_lt ls.roundBound_pos hcount
    · rw [hidle] at hchanged
      exact nomatch hchanged

/-- **Converged means locally optimal, and a fixed point.** The log shows how many nodes each
round of a search has moved; only the last one may have moved none, and the search has converged
iff it has. By the affinities of what it returns, no move of a node is then better than none,
unless the community of the node is at its minimum. A further search in the same buffers, if its
first poll lets it go on, makes one round without a move and changes neither the assignment, nor
the tally, nor the cost if that is summed in the same order. -/
theorem converged_is_optimal_and_fixed {l : EdgeList α} {g : Graph α} (hbuild : l.build = .ok g)
    (hword : g.nodeCount < Tally.modulus) {objective : Objective} {k concurrency minBatch : Nat}
    {minSizes : Array Nat} (hmin : minSizes.size = k)
    (hls : ls = .new g objective k minSizes concurrency minBatch)
    (hschedule : ∀ i, (schedule i).Perm ls.partitions) {w : Workspace α} (hw : w.Fits ls)
    {c : Candidate α} (hc : c.Sound g.nodeCount k) (scope : Scope α) :
    ls.computeOn schedule w c scope = .error .boundExceeded ∨
      ∃ outcome w' c' scope', ∃ moves : List Nat,
        ls.computeOn schedule w c scope = .ok ((outcome, w', c'), scope') ∧
        scope'.journal.rounds = scope.journal.rounds ++ moves.zipIdx 1 ∧
        outcome.rounds = moves.length ∧ outcome.swaps = moves.sum ∧
        (∀ m ∈ moves.dropLast, m ≠ 0) ∧
        (outcome.converged = true ↔ moves.getLast? = some 0) ∧
        (outcome.converged = true →
          (∀ buffer : Array α, buffer.size = g.nodeCount * k →
            ∃ table, ls.affinities c'.assignment buffer = .ok table ∧
              ∀ v < g.nodeCount, ∀ d < k, d ≠ c'.assignment.community v →
                ¬ objective.better (ls.entry table v (c'.assignment.community v) -
                    ls.entry table v d) 0 = true ∨
                  c'.tally.getD (c'.assignment.community v) 0 ≤
                    minSizes.getD (c'.assignment.community v) 0) ∧
          ∀ (schedule' : Schedule) (scope₁ : Scope α), (∀ i, (schedule' i).Perm ls.partitions) →
            scope₁.termination.poll.1 = false →
            ∃ w'' c'' scope₂,
              ls.computeOn schedule' w' c' scope₁ = .ok ((⟨1, 0, true⟩, w'', c''), scope₂) ∧
              c''.assignment = c'.assignment ∧ c''.tally = c'.tally ∧
              (schedule' 1 = schedule outcome.rounds → c''.cost = c'.cost)) := by
  have ready : ls.Ready := by
    rw [hls]
    exact ready_new (EdgeList.wellFormed_of_build hbuild) hword objective hmin concurrency minBatch
  obtain rfl : ls.graph = g := by rw [hls]; rfl
  obtain rfl : ls.k = k := by rw [hls]; rfl
  obtain rfl : ls.minSizes = minSizes := by rw [hls]; rfl
  obtain rfl : ls.objective = objective := by rw [hls]; rfl
  rcases computeOn_rounds ready hschedule hw hc scope with
    ⟨r, scope', hcompute, p, cost, hrounds, hcost, rfl, -, moves, hlogged, hcounted⟩ |
      ⟨fault, hcompute, rfl, -⟩
  swap
  · exact Or.inl hcompute
  right
  have hsound := hrounds.sound ready ⟨hw, hc.legal, hc.agrees⟩
  refine ⟨_, p.workspace, ⟨p.assignment, p.tally, .of cost⟩, scope', moves, hcompute, hlogged,
    hcounted.rounds_eq.trans (Nat.zero_add _), hcounted.swaps_eq.trans (Nat.zero_add _),
    hcounted.busy, ?_, ?_⟩
  · rw [Bool.not_eq_true']
    exact hcounted.not_changed_iff rfl
  · intro hconverged
    rw [Bool.not_eq_true'] at hconverged
    obtain ⟨p₀, -, hsweep⟩ := hrounds.exists_last rfl hconverged
    have hcomputed := hsweep.computed
    rw [← hsweep.assignment_eq_of_not_changed ready hconverged] at hcomputed
    have hsettled := hsweep.settled_of_not_changed ready hconverged
    have hsame : ∀ {buffer : Array α}, buffer.size = ls.graph.nodeCount * ls.k →
        ls.affinities p.assignment buffer = .ok p.workspace.affinities := fun hbuffer =>
      affinities_unique ready hsound.legal hsweep.start.fits.size_affinities hcomputed hbuffer
    constructor
    · intro buffer hbuffer
      refine ⟨_, hsame hbuffer, fun v hv d hd hne => ?_⟩
      have htally : p.tally.getD (p.assignment.community v) 0 =
          p.assignment.count (p.assignment.community v) :=
        hsound.agrees.getD_eq (hsound.legal.community_lt hv)
      rw [htally]
      exact Classical.or_iff_not_imp_left.2 fun hbetter =>
        hsettled v hv d hd hne (not_not.1 hbetter)
    · intro schedule' scope₁ hschedule' hpoll
      obtain ⟨⟨outcome, w'', c''⟩, scope₂, hagain, houtcome, hassignment, htally, cost', hcost',
        hscored⟩ := computeOn_of_settled (c := ⟨p.assignment, p.tally, .of cost⟩) ready hschedule'
          hsound.fits ⟨hsound.legal, hsound.agrees⟩ (hsame hsound.fits.size_affinities) hsettled hpoll
      obtain rfl : outcome = ⟨1, 0, true⟩ := houtcome
      refine ⟨w'', c'', scope₂, hagain, hassignment, htally, fun horder => ?_⟩
      rw [horder] at hcost'
      obtain rfl : cost' = cost := Except.ok.inj (hcost'.symm.trans hcost)
      exact hscored

/-- The directed triangle from one community, visited from the last block to the first: one
node moves, and then none. A search in the same buffers that is stopped at its second poll only
finds the same again. -/
theorem converged_triangle :
    let ls : LocalSearch Rat := .new (EdgeList.triangle false).toGraph .maximize 2 #[1, 0] 3 1
    let schedule : Schedule := fun _ => ls.partitions.reverse
    let c : Candidate Rat := ⟨#[0, 0, 0], #[3, 0], .worst⟩
    ∃ r scope', ∃ moves : List Nat,
      ls.computeOn schedule ls.workspace c (.start 3 0 .never) = .ok (r, scope') ∧
      scope'.journal.rounds = moves.zipIdx 1 ∧ moves.getLast? = some 0 ∧
      r.1.converged = true ∧
      ∃ r' scope₂, ls.computeOn schedule r.2.1 r.2.2 (.start 3 0 (.afterPolls 1)) =
          .ok (r', scope₂) ∧
        r'.1 = ⟨1, 0, true⟩ ∧ r'.2.2.assignment = r.2.2.assignment ∧
        r'.2.2.tally = r.2.2.tally ∧ r'.2.2.cost = r.2.2.cost := by
  intro ls schedule c
  have hc : c.Sound (EdgeList.triangle false).toGraph.nodeCount 2 := ⟨by decide, by decide⟩
  have hw : ls.workspace.Fits ls := ⟨by decide +kernel, by decide +kernel⟩
  have hschedule : ∀ i, (schedule i).Perm ls.partitions := fun _ => List.reverse_perm _
  have hrun : ((ls.computeOn schedule ls.workspace c (.start 3 0 .never)).toOption.map
      fun r => r.1.1.converged) = some true := by decide +kernel
  rcases converged_is_optimal_and_fixed (EdgeList.build_triangle false) (by decide) (k := 2) rfl
      (Eq.refl ls) hschedule hw hc (.start 3 0 .never) with
    hfault | ⟨outcome, w', c', scope', moves, hcompute, hlogged, -, -, -, hlast, hfixed⟩
  · rw [hfault] at hrun
    exact nomatch hrun
  · rw [hcompute] at hrun
    have hconverged : outcome.converged = true := Option.some.inj hrun
    obtain ⟨w'', c'', scope₂, hagain, hassignment, htally, hcost⟩ :=
      (hfixed hconverged).2 schedule (.start 3 0 (.afterPolls 1)) hschedule rfl
    exact ⟨_, scope', moves, hcompute, hlogged, hlast.1 hconverged, hconverged, _, scope₂, hagain,
      rfl, hassignment, htally, hcost rfl⟩

end KCut.LocalSearch
