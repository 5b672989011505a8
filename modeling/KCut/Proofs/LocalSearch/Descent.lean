import KCut.Proofs.LocalSearch.FixedPoint

/-!
# KCut.Proofs.LocalSearch.Descent

What a local search makes of a candidate, whatever the weights are.

`Descends` relates the candidates before and after a search; of the run around it only the
number of rounds and whether a poll has stopped it are left. Unless it is stopped, a search is
a function of the places at its start: a round is determined by the assignment and the tally
(`Sweep.unique`), and the rounds go on until one of them moves nothing (`Rounds.unique`). What
an unstopped search has led to, the next one leaves as it is, to the last bit of the cost
(`Descends.again`).
-/

namespace KCut.LocalSearch

variable {α : Type} [Weight α] {ls : LocalSearch α}

/-! ### One outcome -/

/-- The states differ in their buffers and in the number of moves until then at most. -/
structure Progress.Same (p q : Progress α) : Prop where
  assignment_eq : q.assignment = p.assignment
  tally_eq : q.tally = p.tally
  changed_eq : q.changed = p.changed
  rounds_eq : q.rounds = p.rounds

/-- **A round is determined by the places at its start.** -/
theorem Sweep.unique {order : List Partition} {p p' q q' : Progress α} (ready : ls.Ready)
    (h : Sweep ls order p p') (h' : Sweep ls order q q') (hsame : p.Same q) : p'.Same q' := by
  have htable : q'.workspace.affinities = p'.workspace.affinities := by
    have hcomputed := affinities_unique ready h.start.legal h.start.fits.size_affinities
      h.computed h'.start.fits.size_affinities
    rw [← hsame.assignment_eq, h'.computed] at hcomputed
    exact Except.ok.inj hcomputed
  have hpass : ls.passOf order q'.workspace.affinities q =
      ls.passOf order p'.workspace.affinities p := by
    rw [passOf, passOf, htable, hsame.assignment_eq, hsame.tally_eq]
  constructor
  · rw [h'.assignment_eq, hpass, h.assignment_eq]
  · rw [h'.tally_eq, hpass, h.tally_eq]
  · rw [h'.changed_eq, hpass, h.changed_eq]
  · rw [h'.rounds_eq, hsame.rounds_eq, h.rounds_eq]

/-- **Rounds that end without a change are determined by the places at their start.** -/
theorem Rounds.unique {schedule : Schedule} {p p' q q' : Progress α} (ready : ls.Ready)
    (h : Rounds ls schedule p p') (h' : Rounds ls schedule q q') (hsame : p.Same q)
    (hend : p'.changed = false) (hend' : q'.changed = false) : p'.Same q' := by
  induction h generalizing q with
  | refl p =>
      rw [h'.eq_of_not_changed (hsame.changed_eq.trans hend)]
      exact hsame
  | @head p p₁ p₂ hmore hsweep _ ih =>
      cases h' with
      | refl q =>
          rw [hsame.changed_eq, hmore] at hend'
          exact nomatch hend'
      | head _ hsweep' hrest' =>
          rw [hsame.rounds_eq] at hsweep'
          exact ih hrest' (hsweep.unique ready hsweep' hsame) hend

/-! ### Descents -/

/-- A local search leads from the candidate `c` to another one in some rounds; `stopped` says
whether a poll has ended it. -/
inductive Descends (ls : LocalSearch α) (c : Candidate α) : Nat → Bool → Candidate α → Prop
  | intro {w : Workspace α} {p : Progress α} {cost : α} (hw : w.Fits ls)
      (hrounds : Rounds ls ls.inOrder ⟨w, c.assignment, c.tally, true, 0, 0⟩ p)
      (hcost : ls.costIn ls.partitions p.assignment = .ok cost) :
      Descends ls c p.rounds p.changed ⟨p.assignment, p.tally, .of cost⟩

/-- Some search makes as many rounds as are allowed, each of them with a move. -/
def Endless (ls : LocalSearch α) : Prop :=
  ∃ (w : Workspace α) (c : Candidate α) (p : Progress α), c.Sound ls.graph.nodeCount ls.k ∧
    Rounds ls ls.inOrder ⟨w, c.assignment, c.tally, true, 0, 0⟩ p ∧ p.changed = true ∧
    p.rounds = ls.roundBound

variable [Weight.Ordered α]

/-- **A search has a result**, which it has descended to, unless it has no end. -/
theorem compute_descends (ready : ls.Ready) {w : Workspace α} (hw : w.Fits ls) {c : Candidate α}
    (hc : c.Sound ls.graph.nodeCount ls.k) (scope : Scope α) :
    (ls.compute w c).GivesOr (fun fault => fault = .boundExceeded ∧ ls.Endless) scope
      fun r scope' => r.2.1.Fits ls ∧ ∃ rounds stopped, ls.Descends c rounds stopped r.2.2 ∧
        scope.Quiet (answersFor rounds stopped) scope' := by
  rcases computeOn_rounds ready (fun _ => .refl ls.partitions) hw hc scope with
    hgives | ⟨fault, hcompute, rfl, p, hrounds, hchanged, hbound⟩
  · refine Or.inl (hgives.mono fun r scope' hpost => ?_)
    obtain ⟨p, cost, hrounds, hcost, rfl, hquiet, -⟩ := hpost
    have hfits := (hrounds.sound ready ⟨hw, hc.legal, hc.agrees⟩).fits
    exact ⟨hfits, p.rounds, p.changed, .intro hw hrounds hcost, hquiet⟩
  · exact Or.inr ⟨_, hcompute, rfl, w, c, p, hc, hrounds, hchanged, hbound⟩

namespace Descends

variable {c c' c₁ c₂ : Candidate α} {rounds rounds' : Nat} {stopped : Bool} (ready : ls.Ready)

omit [Weight.Ordered α] in
/-- The cost cell at the start plays no part in a search. -/
theorem of_samePlaces (h : ls.Descends c rounds stopped c') (hplaces : c₁.SamePlaces c) :
    ls.Descends c₁ rounds stopped c' := by
  cases h with
  | intro hw hrounds hcost =>
      rw [hplaces.assignment_eq, hplaces.tally_eq] at hrounds
      exact .intro hw hrounds hcost

include ready

omit [Weight.Ordered α] in
/-- **Unless it is stopped, a search is a function of the places at its start.** -/
theorem unique (h : ls.Descends c rounds false c') (h' : ls.Descends c₁ rounds' false c₂)
    (hplaces : c.SamePlaces c₁) : c₂ = c' := by
  generalize hend : false = stopped at h
  cases h with
  | @intro w p cost _ hrounds hcost =>
      generalize hend' : false = stopped at h'
      cases h' with
      | @intro w' q cost' _ hrounds' hcost' =>
          have hsame := hrounds.unique ready hrounds'
            ⟨hplaces.assignment_eq, hplaces.tally_eq, rfl, rfl⟩ hend.symm hend'.symm
          rw [hsame.assignment_eq, hcost] at hcost'
          rw [hsame.assignment_eq, hsame.tally_eq, Except.ok.inj hcost']

variable (hc : c.Sound ls.graph.nodeCount ls.k)

include hc

theorem sound (h : ls.Descends c rounds stopped c') : c'.Sound ls.graph.nodeCount ls.k := by
  cases h with
  | intro hw hrounds _ =>
      have hsound := hrounds.sound ready ⟨hw, hc.legal, hc.agrees⟩
      exact ⟨hsound.legal, hsound.agrees⟩

omit hc in
/-- A search takes no node from a community that is not above its minimum. -/
theorem spares (h : ls.Descends c rounds stopped c') :
    Assignment.Spares ls.minSizes ls.k c.assignment c'.assignment := by
  cases h with
  | intro _ hrounds _ => exact hrounds.spares ready

/-- **A further search changes nothing**, not even the cost. -/
theorem again (h : ls.Descends c rounds false c') (h' : ls.Descends c₁ rounds' false c₂)
    (hplaces : c'.SamePlaces c₁) : c₂ = c' := by
  have hsound := h.sound ready hc
  generalize hend : false = stopped at h
  cases h with
  | @intro w p cost hw hrounds hcost =>
      obtain ⟨p₀, -, hsweep⟩ := hrounds.exists_last rfl hend.symm
      have hcomputed := hsweep.computed
      rw [← hsweep.assignment_eq_of_not_changed ready hend.symm] at hcomputed
      have hsettled := hsweep.settled_of_not_changed ready hend.symm
      generalize hend' : false = stopped at h'
      cases h' with
      | @intro w' q cost' hw' hrounds' hcost' =>
          have htable := affinities_unique ready hsound.legal
            hsweep.start.fits.size_affinities hcomputed hw'.size_affinities
          rw [hplaces.assignment_eq, hplaces.tally_eq] at hrounds'
          rcases hrounds'.of_settled ready htable hsettled with rfl | ⟨hlast, hidle⟩
          · exact nomatch hend'
          · have hassignment := hlast.assignment_eq_of_not_changed ready hidle
            have hagrees := (hlast.sound ready).agrees
            rw [hassignment] at hagrees
            have htally := hagrees.unique hsound.agrees
            rw [hassignment, hcost] at hcost'
            rw [hassignment, htally, Except.ok.inj hcost']

end Descends

end KCut.LocalSearch
