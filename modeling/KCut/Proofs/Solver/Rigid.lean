import Mathlib.Algebra.BigOperators.Fin
import KCut.Proofs.Course.Search
import KCut.Proofs.Graph.Family
import KCut.Proofs.NeighborhoodSearch.Rigid
import KCut.Proofs.Solver.Optimum

/-!
# KCut.Proofs.Solver.Rigid

Runs in which no node can move.

With one community, or with minimums that take up all nodes, whatever a trial builds is rigid.
So its search gives it back as it was built (`trial_rigid`): one local search of one round for a
maximal order of zero, two rounds of a neighborhood search for an order of one, and three of them
for any higher order, of which the last one is stuck. A run that nothing stops makes all its
trials, none of which moves a node (`trials_rigid`).
-/

namespace KCut

open Finset (range)

/-! ### Minimums that take up all nodes -/

/-- If the minimums need all nodes, no community has a node to spare. -/
theorem Assignment.count_le_of_sum_eq {a : Assignment} {n k : Nat} (ha : a.Legal n k)
    {mins : List Nat} (hfills : a.Fills mins.toArray k) (hlength : mins.length = k)
    (hsum : mins.sum = n) : ∀ c < k, a.count c ≤ mins.toArray.getD c 0 := by
  have htotal : ∑ c ∈ range k, mins.toArray.getD c 0 = ∑ c ∈ range k, a.count c := by
    rw [sum_count ha, ← hsum, ← hlength, Finset.sum_range, ← Fin.sum_univ_getElem mins]
    refine Finset.sum_congr rfl ?_
    intro i _
    simp
  have hequal := (Finset.sum_eq_sum_iff_of_le fun c hc => hfills c (Finset.mem_range.1 hc)).1 htotal
  intro c hc
  exact (hequal c (Finset.mem_range.2 hc)).ge

namespace Solver

open NeighborhoodSearch (rigidOutcome rigidCount countRound)

/-! ### What trials count -/

/-- The statistics `x'` are `x` after `trials` trials in which no node can move. -/
structure CountsRigid (maxOrder trials : Nat) (x x' : Statistics) : Prop where
  rounds_eq : x'.localSearchRounds = x.localSearchRounds + trials * (min maxOrder 2 + 1)
  swaps_eq : x'.nodeSwaps = x.nodeSwaps
  vnsRounds_eq : x'.vnsRounds = x.vnsRounds + trials * (rigidOutcome maxOrder).rounds
  improvements_eq :
    x'.vnsImprovements = x.vnsImprovements + trials * (rigidOutcome maxOrder).improvements
  stuck_eq : x'.vnsStuck = x.vnsStuck + trials * (rigidOutcome maxOrder).stuck.toNat

namespace CountsRigid

variable {maxOrder trials more : Nat} {x x' x'' : Statistics}

theorem refl (maxOrder : Nat) (x : Statistics) : CountsRigid maxOrder 0 x x := by
  constructor <;> simp

theorem trans (h : CountsRigid maxOrder trials x x') (h' : CountsRigid maxOrder more x' x'') :
    CountsRigid maxOrder (trials + more) x x'' where
  rounds_eq := by rw [h'.rounds_eq, h.rounds_eq, Nat.add_mul, Nat.add_assoc]
  swaps_eq := h'.swaps_eq.trans h.swaps_eq
  vnsRounds_eq := by rw [h'.vnsRounds_eq, h.vnsRounds_eq, Nat.add_mul, Nat.add_assoc]
  improvements_eq := by rw [h'.improvements_eq, h.improvements_eq, Nat.add_mul, Nat.add_assoc]
  stuck_eq := by rw [h'.stuck_eq, h.stuck_eq, Nat.add_mul, Nat.add_assoc]

/-- One trial, whose candidate may have become the best one. -/
theorem trial (maxOrder : Nat) (x : Statistics) (best : Nat) :
    CountsRigid maxOrder 1 x
      { (rigidCount maxOrder x).recordTrial with bestImprovements := best } := by
  match maxOrder with
  | 0 => constructor <;> rfl
  | 1 => constructor <;> rfl
  | order + 2 =>
      constructor <;> simp [rigidCount, rigidOutcome, countRound, Statistics.recordTrial,
        Statistics.recordVnsStuck, Statistics.recordVnsRound, Statistics.recordLocalSearch]

end CountsRigid

section

variable {α : Type} [Weight α] (s : Solver α)

omit [Weight α] in
/-- Random placement counts nothing. -/
theorem construct_statistics (hrandom : ∃ minBatch, s.construction = .random minBatch)
    (index : Nat) (b : Buffers α) (scope : Scope α) :
    (s.construct index b).Ensures scope fun _ scope' =>
      scope'.statistics = scope.statistics := by
  obtain ⟨minBatch, hrandom⟩ := hrandom
  rw [construct, hrandom]
  simp only [Construction.random, RandomPlacement.build, RandomPlacement.buildIn,
    Run.ensures_bind, Run.ensures_begin]
  refine (Reservation.takeMinimums_silent.only_draws _).mono ?_
  rintro r _ ⟨stream, rfl⟩
  refine Run.ensures_check.2 fun free _ => ?_
  refine Run.ensures_concurrency.2 ((RandomPlacement.splitStreams_silent.only_draws _).mono ?_)
  rintro tasks _ ⟨stream', rfl⟩
  simp only [Run.ensures_check, Run.ensures_note, Run.ensures_finish, Run.ensures_pure]
  intro placed _
  trivial

/-- A competition counts the best candidate at most. -/
theorem compete_statistics (index : Nat) (b : Buffers α) (scope : Scope α) :
    (s.compete index b).Ensures scope fun _ scope' => ∃ best,
      scope'.statistics = { scope.statistics with bestImprovements := best } := by
  rw [compete]
  simp only [Run.ensures_bind, Run.ensures_enter]
  cases (b.arena.promote s.config.objective).1 with
  | true =>
      simp only [if_true, Run.ensures_bind, Run.ensures_count, Run.ensures_note,
        Run.ensures_enter, Run.ensures_pure]
      exact ⟨_, rfl⟩
  | false =>
      simp only [Bool.false_eq_true, if_false, Run.ensures_pure]
      exact ⟨_, rfl⟩

end

/-! ### Trials -/

variable {s : Solver Rat} {b : Buffers Rat} {scope : Scope Rat}

/-- In no assignment that a trial may build a node can move. -/
def Rigid (s : Solver Rat) : Prop :=
  s.config.k = 1 ∨ s.config.resolvedMinSizes.sum = s.graph.nodeCount

theorem Rigid.assignment (h : s.Rigid) (hs : s.Suits) {a : Assignment}
    (ha : a.Legal s.graph.nodeCount s.config.k)
    (hfills : a.Fills s.config.resolvedMinSizes.toArray s.config.k) : s.localSearch.Rigid a := by
  rcases h with hone | hsum
  · exact Or.inl (show s.config.k < 2 by omega)
  · exact Or.inr (a.count_le_of_sum_eq ha hfills hs.accepted.length_minSizes hsum)

/-- A search gives the candidate back as it was built, with its cut. -/
theorem improve_rigid (hs : s.Suits) (hrigid : s.Rigid) (hb : b.Fit s)
    (hkept : NeighborhoodSearch.Kept s.localSearch b.candidate)
    (hworst : b.arena.current.cost = .worst) (hrunning : scope.termination.NeverFires) :
    (s.improve b).Gives scope fun b' scope' => b'.Fit s ∧
      b'.arena.current =
        ⟨b.arena.current.assignment, .of (s.graph.cut b.arena.current.assignment)⟩ ∧
      scope.Calm (rigidCount s.config.vnsMaxNeighborhoodOrder) scope' := by
  have hfixed : s.localSearch.Rigid b.candidate.assignment :=
    hrigid.assignment hs hkept.sound.legal hkept.fills
  rw [improve]
  refine Run.gives_bind.2 ((NeighborhoodSearch.compute_rigid hs.searches_match hb.workspace
    hb.neighbor hkept.sound hworst hfixed hrunning hs.nodeCount_pos).mono ?_)
  rintro ⟨outcome, w, neighbor, best⟩ scope' ⟨-, hw, hneighbor, rfl, hcalm⟩
  exact Run.gives_pure.2
    ⟨⟨hb.size_current, hb.size_best, hb.size_tally, hw, hneighbor⟩, rfl, hcalm⟩

/-- The steps of a trial up to its candidate. -/
def openTrial (s : Solver Rat) (index : Nat) (b : Buffers Rat) : Run Rat (Buffers Rat) := do
  Run.begin (.trial index)
  s.construct index b

/-- The scored candidate of a trial is the one that it has built. -/
def entryOf (s : Solver Rat) (index : Nat) (built : Buffers Rat) : ScoredTrial Rat :=
  ⟨index, .of (s.graph.cut built.arena.current.assignment), built.arena.current.assignment⟩

/-- **A trial in which no node can move** scores the candidate that it has built. -/
theorem trial_rigid (hs : s.Suits) (hrigid : s.Rigid) (index : Nat) (hb : b.Fit s)
    (scope : Scope Rat) (hrunning : scope.termination.NeverFires) :
    (s.trial index b).Gives scope fun r scope' => r.1 = true ∧ r.2.Fit s ∧
      scope'.termination.NeverFires ∧
      CountsRigid s.config.vnsMaxNeighborhoodOrder 1 scope.statistics scope'.statistics ∧
      (s.openTrial index b).Gives scope fun built _ => built.Fit s ∧
        scope'.journal.scoredTrials = scope.journal.scoredTrials ++ [s.entryOf index built] := by
  obtain ⟨built, scope₁, hconstruct, hb₁, hkept, hworst, -, hquiet⟩ := construct_gives hs index hb
    { scope with journal := scope.journal.push (.task (.began (.trial index))) }
  have huncounted := construct_statistics s hs.random index b _ _ _ hconstruct
  have hrunning₁ : scope₁.termination.NeverFires := hrunning.of_answers hquiet.asked
  have hpolled := (((Scope.Quiet.refl scope).task (.began (.trial index))).trans hquiet).polled
    scope₁.stream.position
  rw [trial]
  refine Run.gives_bind.2 (Run.gives_begin.2 ?_)
  refine Run.gives_bind.2 ((Run.gives_iff_of_eq hconstruct).2 ?_)
  refine Run.gives_bind.2 (Run.gives_poll.2 ?_)
  rw [hrunning₁.poll.1] at hpolled ⊢
  refine Run.gives_bind.2 (Run.Gives.mono
    (improve_rigid hs hrigid hb₁ hkept hworst hrunning₁.poll.2) ?_)
  rintro b₂ scope₂ ⟨hb₂, hcurrent, hcalm⟩
  refine Run.gives_bind.2 (((compete_gives s index b₂ scope₂).and
    (compete_statistics s index b₂ scope₂)).mono ?_)
  rintro ⟨improved, b₃⟩ scope₃ ⟨hcompeted, best, hstatistics⟩
  simp only [Run.gives_bind, Run.gives_count, Run.gives_note, Run.gives_finish, Run.gives_pure]
  obtain ⟨polls, hsearched⟩ := hcalm.quiet
  have hbefore := hpolled.trans hsearched
  have hend := (((Scope.Quiet.refl scope₃).counted (Statistics.bestImprovements_recordTrial
    scope₃.statistics)).noted (.trialEnd index b₂.arena.current.cost b₃.arena.best.cost
    improved)).task (.ended (.trial index))
  refine ⟨trivial, hcompeted.fit hb₂, ?_, ?_, built, scope₁, hconstruct, hb₁, ?_⟩
  · exact (hrunning.of_answers hbefore.asked).of_answers hcompeted.asked
  · rw [hstatistics, hcalm.statistics_eq, huncounted]
    exact .trial _ _ best
  · rw [hend.scored_eq, hcompeted.scored_eq, hbefore.scored_eq, hcurrent]
    rfl

/-! ### Runs -/

/-- The steps of a run from the given trial on, up to the construction of a later one. -/
def untilBuilt (s : Solver Rat) (index later : Nat) (b : Buffers Rat) : Run Rat (Buffers Rat) := do
  let b ← s.trials later index b
  let _ ← Run.poll
  s.openTrial (index + later) b

/-- The scope after a poll that lets the run go on. -/
def goOn (scope : Scope Rat) : Scope Rat :=
  { scope with
    termination := scope.termination.poll.2
    journal := scope.journal.push (.polled false scope.stream.position) }

theorem poll_eq (hrunning : scope.termination.NeverFires) :
    Run.poll scope = .ok (false, goOn scope) := by
  have hpoll : scope.termination.poll = (false, scope.termination.poll.2) :=
    Prod.ext hrunning.poll.1 rfl
  rw [Run.poll, hpoll]
  rfl

/-- A run goes on after a trial. -/
theorem trials_succ (hrunning : scope.termination.NeverFires) {index : Nat} {b₁ : Buffers Rat}
    {scope₁ : Scope Rat} (htrial : s.trial index b (goOn scope) = .ok ((true, b₁), scope₁))
    (remaining : Nat) :
    s.trials (remaining + 1) index b scope = s.trials remaining (index + 1) b₁ scope₁ := by
  rw [trials, Run.bind_of_eq_ok (poll_eq hrunning)]
  exact Run.bind_of_eq_ok htrial _

/-- **Trials in which no node can move** score what they have built, one after another. -/
theorem trials_rigid (hs : s.Suits) (hrigid : s.Rigid) (remaining index : Nat) (hb : b.Fit s)
    (scope : Scope Rat) (hrunning : scope.termination.NeverFires) :
    (s.trials remaining index b).Gives scope fun _ scope' =>
      CountsRigid s.config.vnsMaxNeighborhoodOrder remaining scope.statistics scope'.statistics ∧
      ∃ scored : List (ScoredTrial Rat),
        scope'.journal.scoredTrials = scope.journal.scoredTrials ++ scored ∧
        scored.length = remaining ∧
        ∀ j < remaining, (s.untilBuilt index j b).Gives scope fun built _ =>
          built.Fit s ∧ scored[j]? = some (s.entryOf (index + j) built) := by
  induction remaining generalizing index b scope with
  | zero =>
      rw [trials]
      refine Run.gives_pure.2 ⟨.refl _ _, [], (List.append_nil _).symm, rfl, ?_⟩
      intro j hj
      exact absurd hj (Nat.not_lt_zero j)
  | succ remaining ih =>
      have hpolled : (goOn scope).journal.scoredTrials = scope.journal.scoredTrials := by
        simp [goOn, Journal.scoredTrials]
      obtain ⟨⟨_, b₁⟩, scope₁, htrial, rfl, hb₁, hrunning₁, hcounts, built, scope₂, hbuilt,
        hfit, hscored⟩ := trial_rigid hs hrigid index hb (goOn scope) hrunning.poll.2
      obtain ⟨b₂, scope₃, htrials, hcounts', scored, hscored', hlength, hbuilds⟩ :=
        ih (index + 1) hb₁ scope₁ hrunning₁
      refine ⟨b₂, scope₃, (trials_succ hrunning htrial remaining).trans htrials, ?_,
        s.entryOf index built :: scored, ?_, by rw [List.length_cons, hlength], ?_⟩
      · rw [Nat.add_comm]
        exact hcounts.trans hcounts'
      · rw [hscored', hscored, hpolled, List.append_assoc]
        rfl
      · intro j hj
        cases j with
        | zero =>
            refine ⟨built, scope₂, ?_, hfit, rfl⟩
            rw [untilBuilt, trials, pure_bind, Run.bind_of_eq_ok (poll_eq hrunning)]
            exact hbuilt
        | succ j =>
            obtain ⟨built', scope', hbuilt', hfit', hentry⟩ := hbuilds j (by omega)
            have hindex : index + (j + 1) = index + 1 + j := by omega
            refine ⟨built', scope', ?_, hfit', by rw [List.getElem?_cons_succ, hentry, hindex]⟩
            rw [← hbuilt', untilBuilt, untilBuilt, hindex]
            exact Run.bind_congr (trials_succ hrunning htrial j) _

/-- The steps of a run up to the construction of the trial after the first `done` ones. -/
def firstSteps (s : Solver Rat) (done : Nat) : Run Rat (Buffers Rat) := do
  Run.begin .grasp
  s.untilBuilt 1 done s.buffers

/-- **A run in which no node can move** has a report, and has scored what it has built. -/
theorem compute_rigid (hs : s.Suits) (hrigid : s.Rigid) (hnever : s.condition.NeverFires)
    (seed : UInt64) :
    ∃ report, s.compute seed = .ok report ∧
      CountsRigid s.config.vnsMaxNeighborhoodOrder s.config.iterations .zero
        report.answer.statistics ∧
      report.journal.scoredTrials.length = s.config.iterations ∧
      ∀ j < s.config.iterations, (s.firstSteps j).Gives (s.startScope seed) fun built _ =>
        built.Fit s ∧ report.journal.scoredTrials[j]? = some (s.entryOf (j + 1) built) := by
  have hbegin : Run.begin .grasp (s.startScope seed) = .ok ((), { s.startScope seed with
      journal := (s.startScope seed).journal.push (.task (.began .grasp)) }) := rfl
  obtain ⟨b, scope, htrials, hcounts, scored, hscored, hlength, hbuilds⟩ :=
    trials_rigid hs hrigid s.config.iterations 1 buffers_fit { s.startScope seed with
      journal := (s.startScope seed).journal.push (.task (.began .grasp)) } hnever
  have hgrasp : s.grasp (s.startScope seed) =
      .ok (b, { scope with journal := scope.journal.push (.task (.ended .grasp)) }) := by
    rw [grasp, Run.bind_of_eq_ok hbegin, Run.bind_of_eq_ok htrials]
    rfl
  obtain ⟨report, hcompute, hreports⟩ := compute_of_grasp hs.nodeCount_pos hgrasp
  have hjournal : report.journal.scoredTrials = scored := by
    have hend := ((Scope.Quiet.refl scope).task (.ended .grasp)).noted (.solveEnd b.arena.best.cost
      scope.statistics.trialsCompleted scope.statistics.bestImprovements)
    rw [hreports.journal_eq, hend.scored_eq, hscored]
    rfl
  refine ⟨report, hcompute, ?_, by rw [hjournal, hlength], ?_⟩
  · rw [hreports.answer_eq]
    exact hcounts
  · intro j hj
    obtain ⟨built, scope', hbuilt, hfit, hentry⟩ := hbuilds j hj
    refine ⟨built, scope', ?_, hfit, by rw [hjournal, hentry, Nat.add_comm]⟩
    rw [firstSteps, Run.bind_of_eq_ok hbegin]
    exact hbuilt

/-! ### One community -/

theorem eq_zero_of_one_community {a : Assignment} {n : Nat} (ha : a.Legal n 1) :
    a = .zero n := by
  refine Assignment.ext_community (ha.size_eq.trans (Assignment.size_zero n).symm) ?_
  intro v hv
  have hlt := ha.community_lt (ha.size_eq ▸ hv)
  have hzero : (Assignment.zero n).community v = 0 := by
    simp [Assignment.zero, Assignment.community, ← ha.size_eq, hv]
  omega

/-- A settled answer with one community has all nodes in it, and nothing is cut. -/
theorem Settled.eq_of_one_community {answer : Answer Rat} (h : Settled s answer)
    (hone : s.config.k = 1) :
    answer.assignment = .zero s.graph.nodeCount ∧ answer.cost = .of 0 := by
  have hlegal : answer.assignment.Legal s.graph.nodeCount 1 := hone ▸ h.legal
  refine ⟨eq_zero_of_one_community hlegal, ?_⟩
  rw [h.cost_eq, Graph.cut_eq_zero]
  intro v hv u hu
  have hhere := hlegal.community_lt hv
  have hthere := hlegal.community_lt hu
  omega

section

variable {l : EdgeList Rat} {g : Graph Rat} {c : Config}

/-- **Runs in which no node can move only build.** With one community, or with minimums that sum
to the number of nodes, a run that is never stopped moves no node, and each of its trials scores
exactly the candidate that it has built. With plain local searches it makes one round for each
trial; with neighborhoods of order one two of their rounds, none of which is stuck; and with
higher orders three, of which the first one is an improvement and the last one is stuck. The
answer of a run with one community has all nodes in it, at a cost of zero. -/
theorem rigid_runs_only_build (hbuild : l.build = .ok g) (hpos : 0 < g.nodeCount)
    (hword : g.nodeCount < Tally.modulus) (haccepted : c.problemFor? g.nodeCount = .ok none)
    (hk : c.k < 2 ^ 32) (minBatch : Nat) (termination : Option Termination) (listeners : Nat)
    (hnever : (Solver.condition (⟨g, c, .random minBatch, termination, listeners⟩ :
      Solver Rat)).NeverFires)
    (hrigid : c.k = 1 ∨ c.resolvedMinSizes.sum = g.nodeCount) (seed : UInt64) :
    let s : Solver Rat := ⟨g, c, .random minBatch, termination, listeners⟩
    ∃ report, s.compute seed = .ok report ∧
      let counted := report.answer.statistics
      counted.nodeSwaps = 0 ∧
      report.journal.scoredTrials.length = c.iterations ∧
      (∀ j < c.iterations, ∃ built scope cost,
        s.firstSteps j (s.startScope seed) = .ok (built, scope) ∧
        g.cutWeight built.arena.current.assignment = .ok cost ∧
        report.journal.scoredTrials[j]? =
          some ⟨j + 1, .of cost, built.arena.current.assignment⟩) ∧
      (c.vnsMaxNeighborhoodOrder = 0 → counted.localSearchRounds = c.iterations) ∧
      (c.vnsMaxNeighborhoodOrder = 1 →
        counted.vnsRounds = 2 * c.iterations ∧ counted.vnsStuck = 0) ∧
      (2 ≤ c.vnsMaxNeighborhoodOrder → counted.vnsRounds = 3 * c.iterations ∧
        counted.vnsImprovements = c.iterations ∧ counted.vnsStuck = c.iterations) ∧
      (c.k = 1 → report.answer.assignment = .zero g.nodeCount ∧ report.answer.cost = .of 0) := by
  intro s
  have hs : s.Suits :=
    suits_of_build hbuild hpos hword haccepted hk minBatch termination listeners
  obtain ⟨report, hcompute, hcounts, hlength, hbuilds⟩ := compute_rigid hs hrigid hnever seed
  refine ⟨report, hcompute, hcounts.swaps_eq, hlength, ?_, ?_, ?_, ?_, ?_⟩
  · intro j hj
    obtain ⟨built, scope, hbuilt, hfit, hentry⟩ := hbuilds j hj
    exact ⟨built, scope, _, hbuilt, Graph.cutWeight_eq hs.graph hfit.size_current, hentry⟩
  · intro horder
    rw [hcounts.rounds_eq, show s.config.vnsMaxNeighborhoodOrder = 0 from horder]
    simp [Statistics.zero, s]
  · intro horder
    rw [hcounts.vnsRounds_eq, hcounts.stuck_eq,
      show s.config.vnsMaxNeighborhoodOrder = 1 from horder]
    simp [Statistics.zero, rigidOutcome, Nat.mul_comm, s]
  · intro horder
    obtain ⟨more, hmore⟩ := Nat.exists_eq_add_of_le' horder
    rw [hcounts.vnsRounds_eq, hcounts.improvements_eq, hcounts.stuck_eq,
      show s.config.vnsMaxNeighborhoodOrder = more + 2 from hmore]
    simp [Statistics.zero, rigidOutcome, Nat.mul_comm, s]
  · intro hone
    rcases compute_settled hs hnever seed with ⟨fault, hfault, -⟩ | ⟨settled, hcompute', h⟩
    · rw [hcompute] at hfault
      cases hfault
    · obtain rfl : report = settled := Except.ok.inj (hcompute.symm.trans hcompute')
      exact h.eq_of_one_community hone

/-- The undirected triangle, with minimums of two nodes and of one, and in one community. -/
theorem rigid_triangle :
    let s (c : Config) : Solver Rat := ⟨(EdgeList.triangle true).toGraph, c, .random 1, none, 0⟩
    let full : Config := { Config.default with
      iterations := 2
      vnsMaxNeighborhoodOrder := 2
      minCommunitySizes := [2, 1] }
    let one : Config := { Config.default with
      iterations := 3
      k := 1
      vnsMaxNeighborhoodOrder := 0
      minCommunitySizes := [0] }
    (∃ report, (s full).compute 7 = .ok report ∧ report.answer.statistics.nodeSwaps = 0 ∧
      report.answer.statistics.vnsRounds = 6 ∧ report.answer.statistics.vnsImprovements = 2 ∧
      report.answer.statistics.vnsStuck = 2) ∧
    ∃ report, (s one).compute 7 = .ok report ∧ report.answer.assignment = #[0, 0, 0] ∧
      report.answer.cost = .of 0 ∧ report.answer.statistics.localSearchRounds = 3 := by
  intro s full one
  constructor
  · obtain ⟨report, hcompute, hswaps, -, -, -, -, hhigh, -⟩ :=
      rigid_runs_only_build (EdgeList.build_triangle true) (c := full) (by decide) (by decide)
        (by decide) (by decide) 1 none 0 (.of_poll_eq rfl) (Or.inr (by decide)) 7
    obtain ⟨hrounds, himprovements, hstuck⟩ := hhigh (by decide)
    exact ⟨report, hcompute, hswaps, hrounds, himprovements, hstuck⟩
  · obtain ⟨report, hcompute, -, -, -, hplain, -, -, hzero⟩ :=
      rigid_runs_only_build (EdgeList.build_triangle true) (c := one) (by decide) (by decide)
        (by decide) (by decide) 1 none 0 (.of_poll_eq rfl) (Or.inl rfl) 7
    obtain ⟨hassignment, hcost⟩ := hzero rfl
    exact ⟨report, hcompute, hassignment, hcost, hplain rfl⟩

end

end Solver

end KCut
