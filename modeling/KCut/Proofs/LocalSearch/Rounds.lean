import KCut.Proofs.LocalSearch.Cost
import KCut.Proofs.LocalSearch.Sweep

/-!
# KCut.Proofs.LocalSearch.Rounds

The rounds of a whole local search, whatever the weights are.

`Rounds` describes the rounds of a search apart from the run that they take place in,
and everything about whole searches is read off it. They end with a round that has
changed nothing or with a poll that stops the run, unless there are more of them than
a search allows, each with a move (`converge_rounds`). The rounds may visit the blocks
in any order, each round in another one. The log has a line for each of them
(`Progress.Counted`).
-/

namespace KCut.LocalSearch

variable {α : Type}

/-- The answers to the polls of a search: it went on before each of its rounds, and
it was stopped in the end if something had still changed. -/
def answersFor (rounds : Nat) (changed : Bool) : List Bool :=
  List.replicate rounds false ++ if changed then [true] else []

theorem not_mem_answersFor_iff {rounds : Nat} {changed : Bool} :
    true ∉ answersFor rounds changed ↔ changed = false := by
  cases changed with
  | true => simp [answersFor]
  | false => simp [answersFor]

/-! ### Counts -/

/-- The state `p'` is `p` some rounds later, of which each has moved as many nodes as
`moves` says. Only the last one may have moved none. -/
structure Progress.Counted (p : Progress α) (moves : List Nat) (p' : Progress α) : Prop where
  rounds_eq : p'.rounds = p.rounds + moves.length
  swaps_eq : p'.swaps = p.swaps + moves.sum
  changed_eq : p'.changed = (moves.getLast?.map (· != 0)).getD p.changed
  busy : ∀ m ∈ moves.dropLast, m ≠ 0

namespace Progress.Counted

variable {p p₁ p' : Progress α} {moves : List Nat}

theorem refl (p : Progress α) : p.Counted [] p :=
  ⟨rfl, rfl, rfl, by simp⟩

/-- One more round in front of others, which are only made if it has moved a node. -/
theorem head {m : Nat} (hrounds : p₁.rounds = p.rounds + 1) (hswaps : p₁.swaps = p.swaps + m)
    (hchanged : p₁.changed = (m != 0)) (h : p₁.Counted moves p') (hmore : moves ≠ [] → m ≠ 0) :
    p.Counted (m :: moves) p' where
  rounds_eq := by
    rw [h.rounds_eq, hrounds, List.length_cons]
    omega
  swaps_eq := by
    rw [h.swaps_eq, hswaps, List.sum_cons, Nat.add_assoc]
  changed_eq := by
    rw [h.changed_eq, hchanged, List.getLast?_cons]
    cases moves.getLast? with
    | none => rfl
    | some last => rfl
  busy := by
    cases moves with
    | nil => simp
    | cons next rest =>
        rw [List.dropLast_cons_cons]
        intro x hx
        rcases List.mem_cons.1 hx with rfl | hx
        · exact hmore (List.cons_ne_nil _ _)
        · exact h.busy x hx

/-- **A search has converged** iff it has made a round and the last one moved nothing. -/
theorem not_changed_iff (h : p.Counted moves p') (hstart : p.changed = true) :
    p'.changed = false ↔ moves.getLast? = some 0 := by
  rw [h.changed_eq, hstart]
  cases moves.getLast? with
  | none => simp
  | some m => simp

end Progress.Counted

variable [Weight α] {ls : LocalSearch α}

/-! ### Rounds -/

/-- The rounds that have led from one state to another, each of them made after
something had changed. -/
inductive Rounds (ls : LocalSearch α) (schedule : Schedule) : Progress α → Progress α → Prop
  | refl (p : Progress α) : Rounds ls schedule p p
  | head {p p' p'' : Progress α} :
      p.changed = true → Sweep ls (schedule p.rounds) p p' → Rounds ls schedule p' p'' →
        Rounds ls schedule p p''

namespace Rounds

variable {schedule : Schedule} {p p' : Progress α}

theorem rounds_le (h : Rounds ls schedule p p') : p.rounds ≤ p'.rounds := by
  induction h with
  | refl p => exact Nat.le_refl _
  | head _ hsweep _ ih =>
      rw [hsweep.rounds_eq] at ih
      exact Nat.le_of_succ_le ih

/-- No round is made after one that has changed nothing. -/
theorem eq_of_not_changed (h : Rounds ls schedule p p') (hchanged : p.changed = false) :
    p' = p := by
  cases h with
  | refl p => rfl
  | head hmore =>
      rw [hchanged] at hmore
      exact nomatch hmore

/-- **Every round but the last one moves a node.** -/
theorem rounds_le_swaps (h : Rounds ls schedule p p') :
    p'.rounds + p.swaps ≤ p'.swaps + p.rounds + 1 := by
  induction h with
  | refl p => omega
  | @head p p₁ p₂ _ hsweep hrest ih =>
      have hrounds := hsweep.rounds_eq
      have hswaps := hsweep.swaps_eq
      cases hchanged : p₁.changed with
      | true =>
          have hmoved := List.length_pos_iff.2 (hsweep.changed_iff.1 hchanged)
          omega
      | false =>
          -- This was the last round, and the only one without a move.
          rw [hrest.eq_of_not_changed hchanged]
          omega

/-- **Rounds that end without a change** end with a round that has moved nothing. -/
theorem exists_last (h : Rounds ls schedule p p') (hstart : p.changed = true)
    (hend : p'.changed = false) :
    ∃ p₀, p'.rounds = p₀.rounds + 1 ∧ Sweep ls (schedule p₀.rounds) p₀ p' := by
  induction h with
  | refl p =>
      rw [hstart] at hend
      exact nomatch hend
  | @head p p₁ p₂ _ hsweep hrest ih =>
      cases hchanged : p₁.changed with
      | true => exact ih hchanged hend
      | false =>
          rw [hrest.eq_of_not_changed hchanged]
          exact ⟨p, hsweep.rounds_eq, hsweep⟩

variable [Weight.Ordered α]

theorem sound (ready : ls.Ready) (h : Rounds ls schedule p p') (hp : p.Sound ls) :
    p'.Sound ls := by
  induction h with
  | refl p => exact hp
  | head _ hsweep _ ih => exact ih (hsweep.sound ready)

theorem spares (ready : ls.Ready) (h : Rounds ls schedule p p') :
    Assignment.Spares ls.minSizes ls.k p.assignment p'.assignment := by
  induction h with
  | refl p => exact .refl _
  | head _ hsweep _ ih => exact (hsweep.spares ready).trans ih

end Rounds

/-! ### Searches -/

omit [Weight α] in
theorem roundBound_pos (ls : LocalSearch α) : 0 < ls.roundBound :=
  Nat.add_pos_right _ (by decide)

section

variable [Weight.Ordered α] (ready : ls.Ready) {schedule : Schedule}
  (hschedule : ∀ i, (schedule i).Perm ls.partitions)

include ready hschedule

/-- **The rounds of a search end**, unless as many rounds as are allowed have all moved
a node. -/
theorem converge_rounds {bound : Nat} {p : Progress α} (hp : p.Sound ls) (scope : Scope α) :
    (ls.converge schedule bound p).GivesOr
      (fun fault => fault = .boundExceeded ∧ ∃ p', Rounds ls schedule p p' ∧
        p'.changed = true ∧ p'.rounds = p.rounds + bound)
      scope fun p' scope' => Rounds ls schedule p p' ∧
        scope.Quiet (answersFor (p'.rounds - p.rounds) p'.changed) scope' ∧
        ∃ moves, scope'.journal.rounds = scope.journal.rounds ++ moves.zipIdx (p.rounds + 1) ∧
          p.Counted moves p' := by
  induction bound generalizing p scope with
  | zero =>
      rw [converge]
      cases hchanged : p.changed with
      | true => exact Or.inr ⟨_, rfl, rfl, p, .refl p, hchanged, rfl⟩
      | false =>
          refine Or.inl (Run.gives_pure.2 ⟨.refl p, ?_, [], by simp, .refl p⟩)
          rw [Nat.sub_self, hchanged]
          exact .refl scope
  | succ bound ih =>
      rw [converge]
      cases hchanged : p.changed with
      | false =>
          refine Or.inl (Run.gives_pure.2 ⟨.refl p, ?_, [], by simp, .refl p⟩)
          rw [Nat.sub_self, hchanged]
          exact .refl scope
      | true =>
          refine Run.Gives.bindOr (Run.gives_poll.2 ?_)
          have hpolled := (Scope.Quiet.refl scope).polled scope.stream.position
          cases hstop : scope.termination.poll.1 with
          | true =>
              rw [hstop] at hpolled
              refine Or.inl (Run.gives_pure.2 ⟨.refl p, ?_, [], by simp, .refl p⟩)
              rw [Nat.sub_self, hchanged]
              exact hpolled
          | false =>
              rw [hstop] at hpolled
              refine Run.Gives.bindOr ((round_sweeps ready (hschedule _) hp _).mono ?_)
              intro p₁ scope₁ hpost
              obtain ⟨hsweep, hquiet, hlogged⟩ := hpost
              have hrounds := hsweep.rounds_eq
              rcases ih (hsweep.sound ready) scope₁ with hgives | ⟨fault, hfault, heq, p', hmore⟩
              · refine Or.inl (hgives.mono fun p' scope' hpost => ?_)
                obtain ⟨hrest, hquiet', moves, hlogged', hcounted⟩ := hpost
                refine ⟨.head hchanged hsweep hrest, ?_, _, ?_, .head hrounds hsweep.swaps_eq ?_
                  hcounted ?_⟩
                · have hle := hrest.rounds_le
                  have hcount : p'.rounds - p.rounds = p'.rounds - p₁.rounds + 1 := by omega
                  rw [hcount, answersFor, List.replicate_succ]
                  exact (hpolled.trans hquiet).trans hquiet'
                · rw [hlogged', hlogged, hrounds, Journal.rounds_push_polled, List.zipIdx_cons,
                    List.append_assoc]
                  rfl
                · rw [hsweep.changed_eq]
                  cases (ls.passOf (schedule p.rounds) p₁.workspace.affinities p).moved with
                  | nil => rfl
                  | cons v rest => rfl
                · -- There are further rounds only if this one has moved a node.
                  intro hmoves hnone
                  have hidle : p₁.changed = false := by
                    rw [hsweep.changed_eq, List.length_eq_zero_iff.1 hnone]
                    rfl
                  have hcount := hcounted.rounds_eq
                  rw [hrest.eq_of_not_changed hidle] at hcount
                  exact hmoves (List.length_eq_zero_iff.1 (by omega))
              · obtain ⟨hrest, hchanged', hcount⟩ := hmore
                exact Or.inr ⟨fault, hfault, heq, p', .head hchanged hsweep hrest, hchanged',
                  by omega⟩

/-- **A search has a result**, which its rounds have led to, unless as many rounds as it
allows have all moved a node. -/
theorem computeOn_rounds {w : Workspace α} (hw : w.Fits ls) {c : Candidate α}
    (hc : c.Sound ls.graph.nodeCount ls.k) (scope : Scope α) :
    (ls.computeOn schedule w c).GivesOr
      (fun fault => fault = .boundExceeded ∧ ∃ p,
        Rounds ls schedule ⟨w, c.assignment, c.tally, true, 0, 0⟩ p ∧ p.changed = true ∧
        p.rounds = ls.roundBound)
      scope fun r scope' => ∃ p cost,
        Rounds ls schedule ⟨w, c.assignment, c.tally, true, 0, 0⟩ p ∧
        ls.costIn (schedule p.rounds) p.assignment = .ok cost ∧
        r = (⟨p.rounds, p.swaps, !p.changed⟩, p.workspace,
          ⟨p.assignment, p.tally, .of cost⟩) ∧
        scope.Quiet (answersFor p.rounds p.changed) scope' ∧
        ∃ moves, scope'.journal.rounds = scope.journal.rounds ++ moves.zipIdx 1 ∧
          Progress.Counted ⟨w, c.assignment, c.tally, true, 0, 0⟩ moves p := by
  have hstart : Progress.Sound ls ⟨w, c.assignment, c.tally, true, 0, 0⟩ :=
    ⟨hw, hc.legal, hc.agrees⟩
  rw [computeOn]
  refine Run.Gives.bindOr (Run.gives_begin.2 ?_)
  refine Run.Gives.bindOr (Run.gives_begin.2 ?_)
  refine ((converge_rounds ready hschedule hstart _).allow fun fault hfault => ?_).bind
    fun p scope₁ hpost => ?_
  · simpa only [Nat.zero_add] using hfault
  simp only [Nat.zero_add, Nat.sub_zero] at hpost
  obtain ⟨hrounds, hquiet, moves, hlogged, hcounted⟩ := hpost
  obtain ⟨cost, hcost⟩ :=
    costIn_total ready (hrounds.sound ready hstart).legal.size_eq (hschedule p.rounds)
  refine Or.inl ?_
  simp only [evaluateIn, Run.gives_bind, Run.gives_begin, Run.gives_finish, Run.gives_count,
    Run.gives_check hcost, Run.gives_pure]
  have hbefore :=
    ((Scope.Quiet.refl scope).task (.began .localSearch)).task (.began .convergenceLoop)
  refine ⟨p, cost, hrounds, hcost, rfl, ?_, moves, by simp [hlogged], hcounted⟩
  exact ((((hbefore.trans hquiet).task _).task _).task _).task _ |>.counted rfl

end

end KCut.LocalSearch
