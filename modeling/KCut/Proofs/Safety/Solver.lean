import KCut.Proofs.Graph.Sort
import KCut.Proofs.Safety.NeighborhoodSearch
import KCut.Proofs.Solver.Answer

/-!
# KCut.Proofs.Safety.Solver

A configuration is refused, or no step of the run can be outside its contract.

The trials of a run share their buffers, and what carries the proof from one trial to the
next is that these have the right sizes (`Buffers.Fit`). A construction makes the candidate
legal and counts it, whatever the buffers held before, and from there on the searches keep
it so. A run hence ends with a report, unless two community ids overflow or a search
reaches a bound on its rounds (`compute_safe`). Neither happens to a representable
configuration with exact weights (`compute_exact`).
-/

namespace KCut.Solver

open NeighborhoodSearch (Unfinished)

variable {α : Type} [Weight α] {s : Solver α}

/-! ### The phases of a trial -/

/-- Whoever wins, the slots keep the sizes of their assignments. -/
theorem compete_safe (index : Nat) {b : Buffers α} (hb : b.Fit s) (scope : Scope α) :
    (s.compete index b).Gives scope fun r _ => r.2.Fit s := by
  rw [compete]
  simp only [Run.gives_bind, Run.gives_enter]
  split
  · simp only [Run.gives_bind, Run.gives_count, Run.gives_note, Run.gives_enter, Run.gives_pure]
    exact hb.promote s.config.objective
  · simp only [Run.gives_pure]
    exact hb.promote s.config.objective

/-- A construction asks nothing of the buffers but their sizes. -/
theorem construct_safe (hs : s.Suits) (index : Nat) {b : Buffers α} (hb : b.Fit s)
    (scope : Scope α) :
    (s.construct index b).Gives scope fun b' _ =>
      b'.Fit s ∧ b'.candidate.Sound s.graph.nodeCount s.config.k := by
  obtain ⟨minBatch, hrandom⟩ := hs.random
  have hkword : s.config.k ≤ 2 ^ 64 := (Nat.le_of_lt hs.k_lt).trans (by decide)
  rw [construct, hrandom]
  refine Run.gives_bind.2 ?_
  refine (RandomPlacement.build_gives hs.nodeCount_lt hs.accepted.k_pos hkword hs.size_minSizes
    hs.accepted.sum_minSizes hb.size_current hb.size_tally _ scope).mono ?_
  intro r scope' hbuilt
  obtain ⟨hlegal, hagrees, -, -⟩ := hbuilt
  exact Run.gives_pure.2 ⟨⟨hlegal.size_eq, hb.size_best, hagrees.size_eq, hb.workspace,
    hb.neighbor⟩, ⟨hlegal, hagrees⟩⟩

theorem score_safe (hs : s.Suits) {b : Buffers α} (hb : b.Fit s) (scope : Scope α) :
    (s.score b).Gives scope fun b' _ => b'.Fit s := by
  obtain ⟨cost, hcost⟩ := LocalSearch.costIn_total hs.ready hb.size_current (.refl _)
  simp only [score, LocalSearch.evaluate, LocalSearch.evaluateIn, Run.gives_bind, Run.gives_begin,
    Run.gives_check hcost, Run.gives_finish, Run.gives_pure]
  exact ⟨hb.size_current, hb.size_best, hb.size_tally, hb.workspace, hb.neighbor⟩

variable [Weight.Ordered α]

theorem improve_safe (hs : s.Suits) {b : Buffers α} (hb : b.Fit s)
    (hsound : b.candidate.Sound s.graph.nodeCount s.config.k) (scope : Scope α) :
    (s.improve b).GivesOr (Unfinished s.config.vnsMaxNeighborhoodOrder s.config.k) scope
      fun b' _ => b'.Fit s := by
  rw [improve]
  refine (NeighborhoodSearch.compute_safe hs.searches_match hb.workspace hb.neighbor hsound
    scope).bind ?_
  intro r scope' hsearched
  obtain ⟨hworkspace, hneighbor, hbest⟩ := hsearched
  exact Or.inl (Run.gives_pure.2 ⟨hbest.legal.size_eq, hb.size_best, hbest.agrees.size_eq,
    hworkspace, hneighbor⟩)

/-! ### Trials and runs -/

theorem trial_safe (hs : s.Suits) (index : Nat) {b : Buffers α} (hb : b.Fit s)
    (scope : Scope α) :
    (s.trial index b).GivesOr (Unfinished s.config.vnsMaxNeighborhoodOrder s.config.k) scope
      fun r _ => r.2.Fit s := by
  rw [trial]
  refine Run.Gives.bindOr (Run.gives_begin.2 ?_)
  refine Run.Gives.bindOr ((construct_safe hs index hb _).mono ?_)
  intro b₁ scope₁ hconstructed
  obtain ⟨hb₁, hsound⟩ := hconstructed
  refine Run.Gives.bindOr (Run.gives_poll.2 ?_)
  split
  · -- Stopped behind the construction: the candidate is scored as it is.
    refine Or.inl (Run.gives_bind.2 ((score_safe hs hb₁ _).mono ?_))
    intro b₂ scope₂ hb₂
    refine Run.gives_bind.2 ((compete_safe index hb₂ scope₂).mono ?_)
    intro r scope₃ hr
    simp only [Run.gives_bind, Run.gives_finish, Run.gives_pure]
    exact hr
  · refine (improve_safe hs hb₁ hsound _).bind ?_
    intro b₂ scope₂ hb₂
    refine Or.inl (Run.gives_bind.2 ((compete_safe index hb₂ scope₂).mono ?_))
    intro r scope₃ hr
    simp only [Run.gives_bind, Run.gives_count, Run.gives_note, Run.gives_finish, Run.gives_pure]
    exact hr

theorem trials_safe (hs : s.Suits) {remaining index : Nat} {b : Buffers α} (hb : b.Fit s)
    (scope : Scope α) :
    (s.trials remaining index b).GivesOr (Unfinished s.config.vnsMaxNeighborhoodOrder s.config.k)
      scope fun b' _ => b'.Fit s := by
  induction remaining generalizing index b scope with
  | zero =>
      rw [trials]
      exact Or.inl (Run.gives_pure.2 hb)
  | succ remaining ih =>
      rw [trials]
      refine Run.Gives.bindOr (Run.gives_poll.2 ?_)
      split
      · exact Or.inl (Run.gives_pure.2 hb)
      refine (trial_safe hs index hb _).bind ?_
      intro r scope' hr
      obtain ⟨goOn, b'⟩ := r
      cases goOn with
      | true => exact ih hr scope'
      | false => exact Or.inl (Run.gives_pure.2 hr)

theorem grasp_safe (hs : s.Suits) (scope : Scope α) :
    s.grasp.GivesOr (Unfinished s.config.vnsMaxNeighborhoodOrder s.config.k) scope
      fun b _ => b.Fit s := by
  rw [grasp]
  refine Run.Gives.bindOr (Run.gives_begin.2 ?_)
  refine (trials_safe hs buffers_fit _).bind ?_
  intro b scope' hb
  refine Or.inl ?_
  simp only [Run.gives_bind, Run.gives_finish, Run.gives_pure]
  exact hb

/-- **A run has a report**, unless two community ids overflow or a search reaches a bound on
its rounds. -/
theorem compute_safe (hs : s.Suits) (seed : UInt64) :
    (∃ report, s.compute seed = .ok report) ∨ ∃ fault, s.compute seed = .error fault ∧
      Unfinished s.config.vnsMaxNeighborhoodOrder s.config.k fault := by
  rcases grasp_safe hs (s.startScope seed) with ⟨b, scope, hrun, -⟩ | ⟨fault, hrun, hunfinished⟩
  · obtain ⟨report, hcompute, -⟩ := compute_of_grasp hs.nodeCount_pos hrun
    exact Or.inl ⟨report, hcompute⟩
  · exact Or.inr ⟨fault, compute_of_fault hs.nodeCount_pos hrun, hunfinished⟩

/-! ### Representable configurations -/

section

variable {l : EdgeList α} {g : Graph α} {c : Config}

omit [Weight.Ordered α] in
/-- An accepted configuration is one that runs are safe with, if there are nodes. -/
theorem suits_of_representable (hbuild : l.build = .ok g) (h : c.Representable g.nodeCount)
    (hpos : 0 < g.nodeCount) (haccepted : c.problemFor? g.nodeCount = .ok none)
    (termination : Option Termination) : Suits { Solver.new g c with termination } := by
  have hk := (Config.accepted_of_problemFor? haccepted).k_pos
  have hword : g.nodeCount < Tally.modulus :=
    Nat.lt_of_le_of_lt (Nat.le_mul_of_pos_right _ hk) h.cells_lt
  exact suits_of_build hbuild hpos hword haccepted (Nat.lt_of_le_of_lt h.k_le (by decide)) _ _ _

/-- No two community ids overflow, so nothing is left but a bound on the rounds of a search. -/
theorem compute_safe_of_representable (hbuild : l.build = .ok g)
    (h : c.Representable g.nodeCount) (haccepted : c.problemFor? g.nodeCount = .ok none)
    (termination : Option Termination) (seed : UInt64) :
    (∃ report, ({ Solver.new g c with termination }).compute seed = .ok report) ∨
      ({ Solver.new g c with termination }).compute seed = .error .boundExceeded := by
  rcases Nat.eq_zero_or_pos g.nodeCount with hzero | hpos
  · obtain ⟨report, hreport, -⟩ := compute_of_no_nodes
      (s := { Solver.new g c with termination }) hzero seed
    exact Or.inl ⟨report, hreport⟩
  have hs := suits_of_representable hbuild h hpos haccepted termination
  refine (compute_safe hs seed).imp_right ?_
  rintro ⟨fault, hcompute, ⟨-, hwide, -⟩ | rfl⟩
  · exact absurd h.k_le (Nat.not_le.2 hwide)
  · exact hcompute

end

/-- With exact weights no search reaches its bound. -/
theorem compute_exact {l : EdgeList Rat} {g : Graph Rat} {c : Config} (hbuild : l.build = .ok g)
    (h : c.Representable g.nodeCount) (haccepted : c.problemFor? g.nodeCount = .ok none)
    (termination : Option Termination) (seed : UInt64) :
    ∃ report, ({ Solver.new g c with termination }).compute seed = .ok report := by
  rcases Nat.eq_zero_or_pos g.nodeCount with hzero | hpos
  · obtain ⟨report, hreport, -⟩ := compute_of_no_nodes
      (s := { Solver.new g c with termination }) hzero seed
    exact ⟨report, hreport⟩
  have hs := suits_of_representable hbuild h hpos haccepted termination
  rcases compute_concluded hs seed with ⟨fault, -, -, hwide, -⟩ | ⟨report, -, -, hreport, -⟩
  · exact absurd h.k_le (Nat.not_le.2 hwide)
  · exact ⟨report, hreport⟩

/-! ### Refused or safe -/

section

variable {α : Type} [Weight α] {l : EdgeList α} {g : Graph α} {c : Config}

/-- A configuration with a problem is refused before a solver is set up. -/
theorem solve_of_problem {problem : Config.Problem}
    (h : c.problemFor? g.nodeCount = .ok (some problem)) (terminate : Option Bool)
    (seed : UInt64) :
    solve g c terminate seed = .error
      (.refused problem.toError.toFailure #[] ((terminate.map .flag).getD .never)) := by
  rw [solve, h]
  rfl

/-- An accepted configuration is run. -/
theorem solve_of_accepted (haccepted : c.problemFor? g.nodeCount = .ok none)
    (hlimit : c.timeLimit? = .ok c.timeLimit) (terminate : Option Bool) (seed : UInt64) :
    solve g c terminate seed =
      (({ Solver.new g c with termination := terminate.map .flag }).compute seed).mapError
        .fault := by
  rw [solve, haccepted, hlimit]
  by_cases hzero : g.nodeCount = 0
  · simp only [hzero]
    rfl
  · simp only [ne_eq, hzero, not_false_eq_true, if_true]
    rfl

/-- **What refuses a configuration**: its first problem. -/
theorem solve_refused_iff (h : c.Representable g.nodeCount) {terminate : Option Bool}
    {seed : UInt64} {failure : Failure} {journal : Journal α} {condition : Termination} :
    solve g c terminate seed = .error (.refused failure journal condition) ↔
      (∃ problem, (c.checks g.nodeCount).find? (·.1) = some (true, problem) ∧
        failure = problem.toError.toFailure) ∧
      journal = #[] ∧ condition = (terminate.map .flag).getD .never := by
  have hproblem := h.problemFor?_eq
  simp only [← Config.firstFailed_eq_some_iff]
  cases hfirst : Config.firstFailed (c.checks g.nodeCount) with
  | some problem =>
      rw [hfirst] at hproblem
      rw [solve_of_problem hproblem]
      simp [eq_comm]
  | none =>
      rw [hfirst] at hproblem
      rw [solve_of_accepted hproblem h.timeLimit?_eq]
      generalize ({ Solver.new g c with termination := terminate.map .flag }).compute seed = x
      cases x with
      | ok report => simp [Except.mapError]
      | error fault => simp [Except.mapError]

/-- What a report does not show: the preparations of a run, which are made with unchecked
accesses, give the same when each access is checked, and the counters and blocks of a run stay
inside their ranges. -/
structure Safe (l : EdgeList α) (s : Solver α) : Prop where
  /-- No access is out of range when the edges are stored. -/
  store_eq : l.store = .ok s.graph
  /-- None is when the degrees are taken and the relationships sorted by their targets, and the
  number of cells of the table is a word. -/
  setUp_eq : LocalSearch.setUp s.graph s.config.objective s.config.k
    s.config.resolvedMinSizes.toArray s.config.concurrency s.config.minBatchSize =
      .ok s.localSearch
  /-- A local search decrements no counter from zero. -/
  visit_tally : ∀ {table state v state'}, s.localSearch.visit table state v = .ok state' →
    state.tally.StepsTo state'.tally
  /-- Nor does a perturbation. -/
  attempt_tally : ∀ {retries} {candidate : Candidate α} {scope r scope'},
    s.neighborhoodSearch.attempt retries candidate scope = .ok (r, scope') →
      candidate.tally.StepsTo r.2.tally
  /-- No blocks are cut of size zero. -/
  batchSize_pos : ∀ total workers, 0 < Partition.batchSize total workers s.config.minBatchSize
  /-- No block of free nodes starts behind the last of them, so none has less than no nodes. -/
  start_lt : ∀ count workers, ∀ p ∈ Partition.byCount count workers s.config.minBatchSize,
    p.start < count

theorem safe_of_representable (hbuild : l.build = .ok g) (h : c.Representable g.nodeCount)
    (termination : Option Termination) : Safe l { Solver.new g c with termination } where
  store_eq := EdgeList.store_of_build hbuild
  setUp_eq := LocalSearch.setUp_eq_new hbuild h.cells_lt _ _ _ _
  visit_tally := LocalSearch.visit_tally
  attempt_tally := NeighborhoodSearch.attempt_tally
  batchSize_pos := fun _ _ => Partition.batchSize_pos _ _ _
  start_lt := fun _ _ _ hp => Partition.start_lt_of_mem_byCount hp

end

/-- **A configuration is refused, or no step of the run can be outside its contract.** It is
refused for the first check that fails, and the caller then finds an empty journal, with no
poll and no message in it, and the condition as it was. If none fails, then whatever the
weights, the seed and the condition for a stop: no access or slice is outside its buffer, no
draw is from an empty range, no block is larger than the table, no number of cells and no sum
of community ids, of minimum sizes or of seconds leaves its word, no counter of a community is
decremented from zero and no blocks are cut of size zero. With exact weights every run has a report. With rounded
ones a search may still go round in circles, for as many rounds as it has a bound for. -/
theorem invalid_is_refused_and_valid_never_faults :
    (∀ {α : Type} [Weight α] [Weight.Ordered α] {l : EdgeList α} {g : Graph α} {c : Config},
      l.build = .ok g → c.Representable g.nodeCount →
      (∀ (terminate : Option Bool) (seed : UInt64) (failure : Failure) (journal : Journal α)
          (condition : Termination),
        solve g c terminate seed = .error (.refused failure journal condition) ↔
          (∃ problem, (c.checks g.nodeCount).find? (·.1) = some (true, problem) ∧
            failure = .config ("Invalid configuration: " ++ problem.message)) ∧
          journal = #[] ∧ condition = (terminate.map .flag).getD .never) ∧
      ((∀ check ∈ c.checks g.nodeCount, check.1 = false) →
        (∀ (terminate : Option Bool) (seed : UInt64),
          (∃ report, solve g c terminate seed = .ok report) ∨
            solve g c terminate seed = .error (.fault .boundExceeded)) ∧
        ∀ termination : Option Termination,
          let s := { Solver.new g c with termination }
          Safe l s ∧ ∀ seed, (∃ report, s.compute seed = .ok report) ∨
            s.compute seed = .error .boundExceeded)) ∧
    ∀ {l : EdgeList Rat} {g : Graph Rat} {c : Config},
      l.build = .ok g → c.Representable g.nodeCount →
      (∀ check ∈ c.checks g.nodeCount, check.1 = false) →
      (∀ (terminate : Option Bool) (seed : UInt64),
        ∃ report, solve g c terminate seed = .ok report) ∧
      ∀ (termination : Option Termination) (seed : UInt64),
        ∃ report, ({ Solver.new g c with termination }).compute seed = .ok report := by
  constructor
  · intro α _ _ l g c hbuild h
    refine ⟨fun terminate seed failure journal condition => solve_refused_iff h, ?_⟩
    intro hchecks
    have haccepted := h.problemFor?_eq_none hchecks
    have hcompute := compute_safe_of_representable hbuild h haccepted
    refine ⟨?_, fun termination =>
      ⟨safe_of_representable hbuild h termination, hcompute termination⟩⟩
    intro terminate seed
    rw [solve_of_accepted haccepted h.timeLimit?_eq]
    rcases hcompute (terminate.map .flag) seed with ⟨report, hreport⟩ | hbound
    · exact Or.inl ⟨report, by rw [hreport]; rfl⟩
    · exact Or.inr (by rw [hbound]; rfl)
  · intro l g c hbuild h hchecks
    have haccepted := h.problemFor?_eq_none hchecks
    have hcompute := compute_exact hbuild h haccepted
    refine ⟨?_, hcompute⟩
    intro terminate seed
    obtain ⟨report, hreport⟩ := hcompute (terminate.map .flag) seed
    refine ⟨report, ?_⟩
    rw [solve_of_accepted haccepted h.timeLimit?_eq, hreport]
    rfl

/-- The undirected triangle: without iterations and without workers, only the iterations are
complained about, and nothing has been polled or sent; with half a minute and a minute more,
every run has a report. -/
theorem solve_triangle_refused_or_safe :
    let g : Graph Rat := (EdgeList.triangle true).toGraph
    let c : Config := { Config.default with timeBudget := some ⟨some 30, some 1⟩ }
    (∀ seed, solve g { c with iterations := 0, concurrency := 0 } (some true) seed =
      .error (.refused (.config "Invalid configuration: iterations must be at least 1") #[]
        (.flag true))) ∧
    (∀ terminate seed, ∃ report, solve g c terminate seed = .ok report) ∧
    ∀ termination : Option Termination,
      Safe (EdgeList.triangle true) { Solver.new g c with termination } := by
  intro g c
  have hbuild := EdgeList.build_triangle true
  have hlimit : ∀ budget, c.timeBudget = some budget → budget.total < 2 ^ 64 := by
    rintro budget ⟨⟩
    decide
  have hbroken : { c with iterations := 0, concurrency := 0 : Config }.Representable 3 :=
    ⟨by decide, by decide, by decide, hlimit⟩
  have hplain : c.Representable 3 := ⟨by decide, by decide, by decide, hlimit⟩
  obtain ⟨hordered, hexact⟩ := invalid_is_refused_and_valid_never_faults
  refine ⟨fun seed => ?_, (hexact hbuild hplain (by decide)).1,
    fun termination => (((hordered hbuild hplain).2 (by decide)).2 termination).1⟩
  exact ((hordered hbuild hbroken).1 (some true) seed _ _ _).2
    ⟨⟨.noIterations, by decide, by decide⟩, rfl, rfl⟩

end KCut.Solver
