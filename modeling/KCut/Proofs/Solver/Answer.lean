import KCut.Proofs.Solver.Trial

/-!
# KCut.Proofs.Solver.Answer

The answer of a whole run.

The best slot starts unscored. A trial that gives its candidate a cost leaves it
held, and from then on it stays held, so the run ends unscored only if every trial
that was begun was lost (`trials_gives`). Whatever the best slot holds in the end
is the answer (`compute_result`): it is sound (`answer_is_sound`), and it is one of
the scored candidates unless none was scored (`answer_is_scored_unless_lost`).
-/

namespace KCut.Solver

open NeighborhoodSearch (Overflow)

variable {s : Solver Rat} {scope scope' : Scope Rat}

/-! ### Runs of trials -/

/-- What a part of a run has made of the best slot, by the answers to its polls. -/
structure Passed (s : Solver Rat) (best : Slot Rat) (scope : Scope Rat) (best' : Slot Rat)
    (scope' : Scope Rat) (polls : List Bool) : Prop extends scope.Polled polls scope' where
  held : Held s best scope → Held s best' scope'
  unscored : Unscored s best scope →
    if nothingScored s.config.vnsMaxNeighborhoodOrder polls then Unscored s best' scope'
    else Held s best' scope'
  stable : s.localSearch.KeepsStable polls best best'

namespace Passed

variable {best best' : Slot Rat}

theorem refl : Passed s best scope best scope [] := by
  refine ⟨.refl scope, id, ?_, .refl _ _⟩
  intro hunscored
  simpa [nothingScored] using hunscored

/-- A run that is stopped in front of a trial. -/
theorem stopped (hpolled : scope.Quiet [true] scope') :
    Passed s best scope best scope' [true] := by
  refine ⟨hpolled.toPolled, fun hheld => hheld.quiet hpolled, ?_, .refl _ _⟩
  intro hunscored
  simpa [nothingScored] using hunscored.quiet hpolled

/-- A trial and the rest of the run after it. -/
theorem afterTrial {b : Buffers Rat} {r : Bool × Buffers Rat} {scope₁ scope₂ : Scope Rat}
    {polls more : List Bool} (hpolled : scope.Quiet [false] scope₁)
    (htrial : scope₁.Polled polls scope₂) (hend : TrialEnd s b scope₁ r scope₂ polls)
    (hstable : s.localSearch.KeepsStable polls b.arena.best r.2.arena.best)
    (hrest : Passed s r.2.arena.best scope₂ best' scope' more) :
    Passed s b.arena.best scope best' scope' (false :: (polls ++ more)) := by
  have hall : scope.Polled (false :: (polls ++ more)) scope' := by
    simpa using (hpolled.toPolled.trans htrial).trans hrest.toPolled
  have hbest : s.localSearch.KeepsStable (false :: (polls ++ more)) b.arena.best best' :=
    (LocalSearch.KeepsStable.refl [false] _).trans (hstable.trans hrest.stable)
  cases hend with
  | held hheld hpolls =>
      refine ⟨hall, fun _ => hrest.held hheld, ?_, hbest⟩
      intro _
      rw [hpolls more]
      exact hrest.held hheld
  | lost horder hunscored hheld =>
      -- The answers of the lost trial stand in front of those of the others.
      refine ⟨hall, fun h => hrest.held (hheld (h.quiet hpolled)), ?_, hbest⟩
      intro h
      have hlater := hrest.unscored (hunscored (h.quiet hpolled))
      simpa [nothingScored, horder] using hlater

end Passed

/-- **The trials of a run** keep a held slot held, and leave an unscored one held
unless all of them are lost. -/
theorem trials_gives (hs : s.Suits) {remaining index : Nat} {b : Buffers Rat} (hb : b.Fit s)
    (hbest : Unscored s b.arena.best scope ∨ Held s b.arena.best scope) :
    (s.trials remaining index b).GivesOr (Overflow s.config.vnsMaxNeighborhoodOrder s.config.k)
      scope fun b' scope' => ∃ polls,
        Passed s b.arena.best scope b'.arena.best scope' polls ∧ (0 < remaining → polls ≠ []) := by
  induction remaining generalizing index b scope with
  | zero =>
      rw [trials]
      refine Or.inl (Run.gives_pure.2 ⟨[], .refl, ?_⟩)
      intro hpos
      exact absurd hpos (Nat.lt_irrefl 0)
  | succ remaining ih =>
      rw [trials]
      refine Run.Gives.bindOr (Run.gives_poll.2 ?_)
      have hpolled := (Scope.Quiet.refl scope).polled scope.stream.position
      cases hstop : scope.termination.poll.1 with
      | true =>
          rw [hstop] at hpolled
          exact Or.inl (Run.gives_pure.2 ⟨[true], .stopped hpolled, fun _ => by simp⟩)
      | false =>
          rw [hstop] at hpolled
          have hbest' := hbest.imp (fun h => h.quiet hpolled) fun h => h.quiet hpolled
          refine (trial_gives hs index hb hbest').bind ?_
          intro r scope₁ htrial
          obtain ⟨hb₁, polls, hasked, hend, hstable⟩ := htrial
          have hbest₁ := hend.unscored_or_held hbest'
          obtain ⟨goOn, b₁⟩ := r
          cases goOn with
          | true =>
              refine (ih hb₁ hbest₁).mono ?_
              intro b₂ scope₂ hrest
              obtain ⟨more, hpassed, -⟩ := hrest
              exact ⟨_, .afterTrial hpolled hasked hend hstable hpassed, fun _ => by simp⟩
          | false =>
              exact Or.inl (Run.gives_pure.2
                ⟨_, .afterTrial hpolled hasked hend hstable .refl, fun _ => by simp⟩)

/-! ### Whole runs -/

/-- A report shows what the best slot held when the run was over, in the scope that
the run ended in. -/
structure Concluded (s : Solver Rat) (report : Report Rat) (best : Slot Rat)
    (scope : Scope Rat) : Prop where
  answer_eq : report.answer = ⟨best.assignment, best.cost, scope.statistics⟩
  scored_eq : report.journal.scoredTrials = scope.journal.scoredTrials
  answers_ne_nil : report.journal.answers ≠ []
  slot : if nothingScored s.config.vnsMaxNeighborhoodOrder report.journal.answers then
      Unscored s best scope
    else Held s best scope
  asked : ∃ condition, s.condition.Answers report.journal.answers condition
  stable : true ∉ report.journal.answers → s.localSearch.StableSlot best

/-- The trials of a run, from its first scope on. -/
theorem grasp_gives (hs : s.Suits) (hzero : scope.statistics.bestImprovements = 0) :
    s.grasp.GivesOr (Overflow s.config.vnsMaxNeighborhoodOrder s.config.k) scope
      fun b scope' => ∃ polls, polls ≠ [] ∧ scope.Polled polls scope' ∧
        (if nothingScored s.config.vnsMaxNeighborhoodOrder polls then
          Unscored s b.arena.best scope'
        else Held s b.arena.best scope') ∧
        (true ∉ polls → s.localSearch.StableSlot b.arena.best) := by
  have hstart := (Scope.Quiet.refl scope).task (.began .grasp)
  have hunscored : Unscored s s.buffers.arena.best scope := ⟨rfl, hzero⟩
  rw [grasp]
  refine Run.Gives.bindOr (Run.gives_begin.2 ?_)
  refine (trials_gives hs buffers_fit (Or.inl (hunscored.quiet hstart))).bind ?_
  intro b scope₁ htrials
  obtain ⟨polls, hpassed, hpolled⟩ := htrials
  have hend := (Scope.Quiet.refl scope₁).task (.ended .grasp)
  refine Or.inl ?_
  simp only [Run.gives_bind, Run.gives_finish, Run.gives_pure]
  refine ⟨polls, hpolled hs.accepted.iterations_pos, ?_, ?_, ?_⟩
  · simpa using (hstart.toPolled.trans hpassed.toPolled).trans hend.toPolled
  · have hslot := hpassed.unscored (hunscored.quiet hstart)
    split at hslot
    · next hlost =>
      rw [if_pos hlost]
      exact hslot.quiet hend
    · next hkept =>
      rw [if_neg hkept]
      exact hslot.quiet hend
  · intro hrunning
    exact hpassed.stable hrunning fun hscored => absurd rfl hscored

/-- **A run has a report**, unless two community ids overflow. -/
theorem compute_concluded (hs : s.Suits) (seed : UInt64) :
    (∃ fault, s.compute seed = .error fault ∧
      Overflow s.config.vnsMaxNeighborhoodOrder s.config.k fault) ∨
    ∃ (report : Report Rat) (best : Slot Rat) (scope : Scope Rat),
      s.compute seed = .ok report ∧ Concluded s report best scope := by
  have hzero : (s.startScope seed).statistics.bestImprovements = 0 := rfl
  have hnone : (s.startScope seed).journal.answers = [] := rfl
  rcases grasp_gives hs hzero with
    ⟨b, scope, hrun, polls, hpolls, hasked, hslot, hstable⟩ | ⟨fault, hrun, hoverflow⟩
  · obtain ⟨report, hcompute, hreports⟩ := compute_of_grasp hs.nodeCount_pos hrun
    have hlast := (Scope.Quiet.refl scope).noted (.solveEnd b.arena.best.cost
      scope.statistics.trialsCompleted scope.statistics.bestImprovements)
    -- Nothing was polled before the trials, nor after them.
    have hall : report.journal.answers = polls := by
      rw [hreports.journal_eq, hlast.answers_eq, hasked.answers_eq, hnone]
      simp
    refine Or.inr ⟨report, b.arena.best, scope, hcompute, hreports.answer_eq, ?_, ?_, ?_, ?_, ?_⟩
    · rw [hreports.journal_eq]
      exact hlast.scored_eq
    · rw [hall]
      exact hpolls
    · rw [hall]
      exact hslot
    · rw [hall]
      exact ⟨_, hasked.asked⟩
    · rw [hall]
      exact hstable
  · exact Or.inl ⟨fault, compute_of_fault hs.nodeCount_pos hrun, hoverflow⟩

/-- **A run has a result**, unless two community ids overflow. The answer is what the
best slot holds in the end. -/
theorem compute_result (hs : s.Suits) (seed : UInt64) :
    (∃ fault, s.compute seed = .error fault ∧
      Overflow s.config.vnsMaxNeighborhoodOrder s.config.k fault) ∨
    ∃ (report : Report Rat) (best : Slot Rat) (scope : Scope Rat),
      s.compute seed = .ok report ∧
      report.answer = ⟨best.assignment, best.cost, scope.statistics⟩ ∧
      report.journal.scoredTrials = scope.journal.scoredTrials ∧ report.journal.answers ≠ [] ∧
      if nothingScored s.config.vnsMaxNeighborhoodOrder report.journal.answers then
        Unscored s best scope
      else Held s best scope := by
  refine (compute_concluded hs seed).imp_right ?_
  intro hreport
  obtain ⟨report, best, scope, hcompute, h⟩ := hreport
  exact ⟨report, best, scope, hcompute, h.answer_eq, h.scored_eq, h.answers_ne_nil, h.slot⟩

/-! ### Answers -/

section

variable {l : EdgeList Rat} {g : Graph Rat} {c : Config}

/-- **The answer of a run is sound.** Either nothing has won and the answer puts all
nodes into community 0 at no cost; or it is an assignment to the `k` communities in
which each of them has at least its minimum of nodes, and its cost is the weight of
its own cut. -/
theorem answer_is_sound (hbuild : l.build = .ok g) (hpos : 0 < g.nodeCount)
    (hword : g.nodeCount < Tally.modulus) (haccepted : c.problemFor? g.nodeCount = .ok none)
    (hk : c.k ≤ 2 ^ 31) (minBatch : Nat) (termination : Option Termination) (listeners : Nat)
    (seed : UInt64) :
    let s : Solver Rat := ⟨g, c, .random minBatch, termination, listeners⟩
    ∃ report, s.compute seed = .ok report ∧
      let a := report.answer
      (a.statistics.bestImprovements = 0 ∧ a.assignment = .zero g.nodeCount ∧ a.cost = .worst) ∨
      (0 < a.statistics.bestImprovements ∧ a.assignment.size = g.nodeCount ∧
        (∀ community ∈ a.assignment, community < c.k) ∧
        ∃ sizes cost, a.assignment.communitySizes c.k = .ok sizes ∧ sizes.size = c.k ∧
          (∀ i < c.k, c.resolvedMinSizes.getD i 0 ≤ sizes.getD i 0) ∧
          sizes.toList.sum = g.nodeCount ∧
          g.cutWeight a.assignment = .ok cost ∧ a.cost = .of cost) := by
  intro s
  have hs : s.Suits := suits_of_build hbuild hpos hword haccepted
    (Nat.lt_of_le_of_lt hk (by decide)) minBatch termination listeners
  rcases compute_result hs seed with ⟨fault, -, -, hwide, -⟩ |
    ⟨report, best, scope, hcompute, hanswer, -, -, hbest⟩
  · exact absurd hk (Nat.not_le.2 hwide)
  refine ⟨report, hcompute, ?_⟩
  dsimp only
  rw [hanswer]
  split at hbest
  · refine Or.inl ⟨hbest.improvements_eq, ?_, ?_⟩
    · rw [hbest.best_eq]
    · rw [hbest.best_eq]
  · obtain ⟨sizes, hsizes, hagrees, hsum⟩ := Assignment.communitySizes_eq hbest.legal
    refine Or.inr ⟨hbest.improvements_pos, hbest.legal.size_eq, ?_, sizes, _, hsizes,
      hagrees.size_eq, ?_, hsum, Graph.cutWeight_eq hs.graph hbest.legal.size_eq, hbest.cost_eq⟩
    · intro community hmem
      exact hbest.legal.mem_lt (Array.mem_toList_iff.2 hmem)
    · intro i hi
      have hfills := hbest.fills i hi
      rw [hagrees.getD_eq hi]
      simpa using hfills

/-- The undirected triangle, cut as lightly as communities of two nodes and of one
allow. -/
theorem answer_triangle :
    let s : Solver Rat := ⟨(EdgeList.triangle true).toGraph,
      { Config.default with iterations := 1, minimize := true, minCommunitySizes := [2, 1] },
      .random 1, none, 0⟩
    ∃ report sizes cost, s.compute 7 = .ok report ∧
      report.answer.assignment.communitySizes 2 = .ok sizes ∧ sizes.toList.sum = 3 ∧
      2 ≤ sizes.getD 0 0 ∧ 1 ≤ sizes.getD 1 0 ∧
      s.graph.cutWeight report.answer.assignment = .ok cost ∧ report.answer.cost = .of cost := by
  intro s
  have hcounted : (s.compute 7).toOption.map (·.answer.statistics.bestImprovements) = some 1 := by
    decide +kernel
  obtain ⟨report, hcompute, hanswer⟩ := answer_is_sound (EdgeList.build_triangle true)
    (c := s.config) (by decide) (by decide) (by decide) (by decide) 1 none 0 7
  rw [hcompute] at hcounted
  have hone : report.answer.statistics.bestImprovements = 1 := Option.some.inj hcounted
  rcases hanswer with ⟨hzero, -⟩ | ⟨-, -, -, sizes, cost, hsizes, -, hleast, hsum, hcut, hcost⟩
  · omega
  · exact ⟨report, sizes, cost, hcompute, hsizes, hsum, hleast 0 (by decide),
      hleast 1 (by decide), hcut, hcost⟩

/-- **What a stopped run answers.** Unless two community ids overflow, a run has an
answer. The answer is one of the candidates that competed, with the weight of its
cut, unless nothing was scored: the run was stopped in front of its first trial, or
every trial that it began was lost to the first poll of its neighborhood search. -/
theorem answer_is_scored_unless_lost (hbuild : l.build = .ok g) (hpos : 0 < g.nodeCount)
    (hword : g.nodeCount < Tally.modulus) (haccepted : c.problemFor? g.nodeCount = .ok none)
    (hk : c.k < 2 ^ 32) (minBatch : Nat) (termination : Option Termination) (listeners : Nat)
    (seed : UInt64) :
    let s : Solver Rat := ⟨g, c, .random minBatch, termination, listeners⟩
    (1 < c.vnsMaxNeighborhoodOrder ∧ 2 ^ 31 < c.k ∧
      ∃ sum, s.compute seed = .error (.overflow sum)) ∨
    ∃ report, s.compute seed = .ok report ∧ report.journal.answers ≠ [] ∧
      let a := report.answer
      if nothingScored c.vnsMaxNeighborhoodOrder report.journal.answers then
        a.statistics.bestImprovements = 0 ∧ a.assignment = .zero g.nodeCount ∧ a.cost = .worst
      else
        0 < a.statistics.bestImprovements ∧
        ∃ trial ∈ report.journal.scoredTrials, ∃ cost, trial.assignment = a.assignment ∧
          trial.cost = a.cost ∧ g.cutWeight a.assignment = .ok cost ∧ a.cost = .of cost := by
  intro s
  have hs : s.Suits :=
    suits_of_build hbuild hpos hword haccepted hk minBatch termination listeners
  rcases compute_result hs seed with ⟨fault, hcompute, horder, hwide, sum, rfl⟩ |
    ⟨report, best, scope, hcompute, hanswer, hscored, hpolled, hbest⟩
  · exact Or.inl ⟨horder, hwide, sum, hcompute⟩
  refine Or.inr ⟨report, hcompute, hpolled, ?_⟩
  dsimp only
  rw [hanswer, hscored]
  split at hbest
  · next hlost =>
    rw [if_pos hlost]
    refine ⟨hbest.improvements_eq, ?_, ?_⟩
    · rw [hbest.best_eq]
    · rw [hbest.best_eq]
  · next hkept =>
    rw [if_neg hkept]
    obtain ⟨trial, hmem, hassignment, hcost⟩ := hbest.scored
    exact ⟨hbest.improvements_pos, trial, hmem, _, hassignment, hcost,
      Graph.cutWeight_eq hs.graph hbest.legal.size_eq, hbest.cost_eq⟩

/-- The undirected triangle. A run that is stopped between a construction and the
neighborhood search answers with the constructed candidate; stopped one poll later,
it has lost that candidate. -/
theorem lost_candidate_triangle :
    let s (polls : Nat) : Solver Rat := ⟨(EdgeList.triangle true).toGraph,
      { Config.default with
        iterations := 1
        vnsMaxNeighborhoodOrder := 1
        minCommunitySizes := [2, 1]
        randomSeed := some 1
        concurrency := 1 },
      .random 10000, some (.afterPolls polls), 0⟩
    (∃ report cost, (s 1).compute 0 = .ok report ∧ report.journal.answers = [false, true] ∧
      report.answer.assignment = #[0, 0, 1] ∧ 0 < report.answer.statistics.bestImprovements ∧
      (s 1).graph.cutWeight #[0, 0, 1] = .ok cost ∧ report.answer.cost = .of cost) ∧
    ∃ report, (s 2).compute 0 = .ok report ∧ report.journal.answers = [false, false, true] ∧
      report.answer.statistics.bestImprovements = 0 ∧ report.answer.assignment = .zero 3 ∧
      report.answer.cost = .worst := by
  intro s
  constructor
  · have hrun : ((s 1).compute 0).toOption.map
        (fun report => (report.journal.answers, report.answer.assignment)) =
          some ([false, true], #[0, 0, 1]) := by
      decide +kernel
    rcases answer_is_scored_unless_lost (EdgeList.build_triangle true) (c := (s 1).config)
      (by decide) (by decide) (by decide) (by decide) 10000 (some (.afterPolls 1)) 0 0 with
      ⟨horder, -⟩ | ⟨report, hcompute, -, hanswer⟩
    · exact absurd horder (by decide)
    · rw [hcompute] at hrun
      obtain ⟨hpolls, hassignment⟩ := Prod.mk.inj (Option.some.inj hrun)
      dsimp only at hanswer
      rw [hpolls, hassignment] at hanswer
      obtain ⟨hpos, -, -, cost, -, -, hcut, hcost⟩ := hanswer
      exact ⟨report, cost, hcompute, hpolls, hassignment, hpos, hcut, hcost⟩
  · have hrun : ((s 2).compute 0).toOption.map (·.journal.answers) =
        some [false, false, true] := by
      decide +kernel
    rcases answer_is_scored_unless_lost (EdgeList.build_triangle true) (c := (s 2).config)
      (by decide) (by decide) (by decide) (by decide) 10000 (some (.afterPolls 2)) 0 0 with
      ⟨horder, -⟩ | ⟨report, hcompute, -, hanswer⟩
    · exact absurd horder (by decide)
    · rw [hcompute] at hrun
      have hpolls : report.journal.answers = [false, false, true] := Option.some.inj hrun
      rw [hpolls] at hanswer
      exact ⟨report, hcompute, hpolls, hanswer⟩

end

end KCut.Solver
