import KCut.Proofs.Solver.Answer
import KCut.Proofs.Twins.Construction
import KCut.Proofs.Twins.NeighborhoodSearch

/-!
# KCut.Proofs.Twins.Solver

Whole runs on twin problems, compared through a loop that shares no buffers.

`computeFresh` is the plainest form of a run: every trial works in buffers of its own,
and all that goes from one trial to the next is the random stream, the condition for
a stop, the counters and the best candidate. A run in shared buffers stays in step
with the plain run of a twin (`compute_alike`). Since a problem is its own twin, this
also says that sharing the buffers cannot be seen; and two runs in shared buffers are
alike as soon as both are like one plain run.
-/

namespace KCut.Solver

open NeighborhoodSearch (Spare Overflow)

variable {α β : Type} [Weight α] [Weight β]

/-! ### Runs without shared buffers -/

/-- Lets a candidate compete for best. A winner is copied over the best one. -/
def keepBetter (s : Solver α) (trial : Nat) (current best : Slot α) : Run α (Bool × Slot α) := do
  let candidate : ScoredTrial α := ⟨trial, current.cost, current.assignment⟩
  Run.enter (.scored candidate)
  if s.config.objective.prefers current.cost best.cost then
    let assignment ← Run.check (best.assignment.copyFrom current.assignment)
    Run.count (·.recordBest)
    Run.note (.newBest trial candidate.cost)
    Run.enter (.sent candidate)
    return (true, ⟨assignment, current.cost⟩)
  else
    return (false, best)

/-- One trial in new buffers; gives whether the run goes on after it, and the best
candidate. -/
def freshTrial (s : Solver α) (index : Nat) (best : Slot α) : Run α (Bool × Slot α) := do
  Run.begin (.trial index)
  let (assignment, tally) ←
    s.construction.build s.graph s.config.resolvedMinSizes.toArray index
      (.zero s.graph.nodeCount) (.zero s.config.k)
  if ← Run.poll then
    let cost ← s.localSearch.evaluate assignment
    let (_, best) ← s.keepBetter index ⟨assignment, cost⟩ best
    Run.finish (.trial index)
    return (false, best)
  else
    let (_, _, _, found) ←
      s.neighborhoodSearch.compute s.localSearch s.localSearch.workspace
        (.blank s.graph.nodeCount s.config.k) ⟨assignment, tally, .worst⟩
    let (improved, best) ← s.keepBetter index ⟨found.assignment, found.cost⟩ best
    Run.count (·.recordTrial)
    Run.note (.trialEnd index found.cost best.cost improved)
    Run.finish (.trial index)
    return (true, best)

/-- The trials from number `index` on, `remaining` of them unless the run has to
stop. -/
def freshTrials (s : Solver α) : (remaining index : Nat) → Slot α → Run α (Slot α)
  | 0, _, best => return best
  | remaining + 1, index, best => do
      if ← Run.poll then return best
      let (goOn, best) ← s.freshTrial index best
      if goOn then freshTrials s remaining (index + 1) best else return best

def freshGrasp (s : Solver α) : Run α (Slot α) := do
  Run.begin .grasp
  let best ← s.freshTrials s.config.iterations 1 ⟨.zero s.graph.nodeCount, .worst⟩
  Run.finish .grasp
  return best

/-- The run on a graph with nodes, every trial of it in new buffers. -/
def computeFresh (s : Solver α) (freshSeed : UInt64) : Except Fault (Report α) := do
  let seed := (s.config.randomSeed.map UInt64.ofNat).getD freshSeed
  let (best, scope) ← s.freshGrasp.run
    { s.scope seed with journal := #[.noted (.solveStart (s.settings seed))] }
  let statistics := scope.statistics
  let last : Note α := .solveEnd best.cost statistics.trialsCompleted statistics.bestImprovements
  return {
    answer := ⟨best.assignment, best.cost, statistics⟩
    journal := scope.journal.push (.noted last)
    termination := s.callersPart scope.termination }

/-! ### Twin solvers -/

/-- Two solvers with random placement on twin problems. Their settings differ in the
direction of the objective at most. -/
structure Twins (f : α → β) (s : Solver α) (s' : Solver β) : Prop where
  suits : s.Suits
  searches : NeighborhoodSearch.Twins f s.neighborhoodSearch s'.neighborhoodSearch s.localSearch
    s'.localSearch
  construction_eq : ∃ minBatch, s.construction = .random minBatch ∧
    s'.construction = .random minBatch
  config_eq : s'.config = { s.config with minimize := s'.config.minimize }
  termination_eq : s'.termination = s.termination

/-- A solver is its own twin. -/
theorem Twins.refl [Weight.Ordered α] {s : Solver α} (hs : s.Suits) : Twins id s s where
  suits := hs
  searches := ⟨.refl hs.ready, hs.searches_match, hs.searches_match, rfl, rfl⟩
  construction_eq := hs.random.imp fun _ h => ⟨h, h⟩
  config_eq := rfl
  termination_eq := rfl

/-- The best candidates between two trials are the same up to the change of the costs. -/
structure Buffers.Image (f : α → β) (s : Solver α) (b : Buffers α) (best : Slot β) : Prop where
  fit : b.Fit s
  best_eq : best = b.arena.best.mapCost f

namespace Twins

variable {f : α → β} {s : Solver α} {s' : Solver β} (h : Twins f s s')
  {base : Base α} {base' : Base β}

include h

theorem nodeCount_eq : s'.graph.nodeCount = s.graph.nodeCount :=
  h.searches.searches.nodeCount_eq

theorem k_eq : s'.config.k = s.config.k :=
  h.searches.searches.k_eq

theorem minSizes_eq : s'.config.resolvedMinSizes = s.config.resolvedMinSizes := by
  rw [h.config_eq]
  rfl

theorem iterations_eq : s'.config.iterations = s.config.iterations := by
  rw [h.config_eq]

theorem randomSeed_eq : s'.config.randomSeed = s.config.randomSeed := by
  rw [h.config_eq]

theorem timeLimit_eq : s'.config.timeLimit = s.config.timeLimit := by
  rw [h.config_eq]
  rfl

theorem prefers_eq (x y : Score α) :
    s'.config.objective.prefers (x.map f) (y.map f) = s.config.objective.prefers x y :=
  h.searches.carries.prefers_eq x y

/-! ### Competitions -/

/-- **A candidate wins on both sides or on none**; a copy over the best slot shows
the same as an exchange of the slots. -/
theorem compete_simulates (index : Nat) {b : Buffers α} (hb : b.Fit s) :
    Run.Simulates (Scope.Image f base base')
      (fun r r' => r'.1 = r.1 ∧ Buffers.Image f s r.2 r'.2) (s.compete index b)
      (s'.keepBetter index (b.arena.current.mapCost f) (b.arena.best.mapCost f)) := by
  have hprefers : s'.config.objective.prefers (b.arena.current.mapCost f).cost
      (b.arena.best.mapCost f).cost =
        s.config.objective.prefers b.arena.current.cost b.arena.best.cost := h.prefers_eq _ _
  have hcopy : (b.arena.best.mapCost f).assignment.copyFrom
      (b.arena.current.mapCost f).assignment = .ok b.arena.current.assignment :=
    Assignment.copyFrom_of_size_eq (hb.size_current.trans hb.size_best.symm)
  rw [compete, keepBetter]
  refine (Run.simulates_enter (.scored _)).bind fun _ _ _ => ?_
  cases hwins : s.config.objective.prefers b.arena.current.cost b.arena.best.cost with
  | true =>
      rw [hwins] at hprefers
      rw [Arena.promote_of_better hwins, if_pos hprefers]
      simp only [if_true, hcopy, Run.check_ok_bind]
      refine (Run.simulates_count _).bind fun _ _ _ => ?_
      refine (Run.simulates_note (.newBest index b.arena.current.cost)).bind fun _ _ _ => ?_
      refine (Run.simulates_enter (.sent _)).bind fun _ _ _ => ?_
      exact Run.simulates_pure
        ⟨rfl, ⟨hb.size_best, hb.size_current, hb.size_tally, hb.workspace, hb.neighbor⟩, rfl⟩
  | false =>
      rw [hwins] at hprefers
      rw [Arena.promote_of_not_better hwins, if_neg (by rw [hprefers]; exact Bool.false_ne_true)]
      exact Run.simulates_pure ⟨rfl, hb, rfl⟩

/-! ### Trials -/

variable (hworkers : base'.workers = base.workers)

include hworkers

/-- **A construction in used buffers** gives the candidate of one in new buffers. -/
theorem construct_simulates (index : Nat) {b : Buffers α} (hb : b.Fit s) :
    Run.Simulates (Scope.Image f base base')
      (fun b₁ r' => b₁.Fit s ∧ b₁.candidate = ⟨r'.1, r'.2, .worst⟩ ∧
        b₁.candidate.Sound s.graph.nodeCount s.config.k ∧ b₁.arena.best = b.arena.best)
      (s.construct index b)
      (s'.construction.build s'.graph s'.config.resolvedMinSizes.toArray index
        (.zero s'.graph.nodeCount) (.zero s'.config.k)) := by
  obtain ⟨minBatch, hrandom, hrandom'⟩ := h.construction_eq
  have hkword : s.config.k ≤ 2 ^ 64 := (Nat.le_of_lt h.suits.k_lt).trans (by decide)
  rw [construct, hrandom, hrandom', h.minSizes_eq, h.nodeCount_eq, h.k_eq, ← bind_pure
    ((Construction.random minBatch).build s'.graph _ index _ _)]
  refine (RandomPlacement.buildIn_simulates hworkers h.nodeCount_eq h.suits.nodeCount_lt
    h.suits.accepted.k_pos hkword (fun tasks => .refl tasks) (fun tasks => .refl tasks) _
    hb.size_current (Assignment.size_zero _) hb.size_tally (Tally.size_zero _) _).bind ?_
  rintro ⟨a, t⟩ _ ⟨⟨hlegal, hagrees⟩, rfl⟩
  exact Run.simulates_pure ⟨⟨hlegal.size_eq, hb.size_best, hagrees.size_eq, hb.workspace,
    hb.neighbor⟩, rfl, ⟨hlegal, hagrees⟩, rfl⟩

omit hworkers in
theorem score_simulates {b : Buffers α} (hb : b.Fit s)
    (hsound : b.candidate.Sound s.graph.nodeCount s.config.k) :
    Run.Simulates (Scope.Image f base base')
      (fun b₁ cost => b₁.Fit s ∧ b₁.arena.current.mapCost f = ⟨b.arena.current.assignment, cost⟩ ∧
        b₁.arena.best = b.arena.best)
      (s.score b) (s'.localSearch.evaluate b.arena.current.assignment) := by
  rw [score, ← bind_pure (s'.localSearch.evaluate _)]
  refine (h.searches.searches.evaluate_simulates hsound.legal).bind ?_
  rintro cost _ rfl
  exact Run.simulates_pure
    ⟨⟨hb.size_current, hb.size_best, hb.size_tally, hb.workspace, hb.neighbor⟩, rfl, rfl⟩

variable [Weight.Ordered α] [Weight.Ordered β]

omit hworkers in
/-- **A search in used buffers** finds the candidate of one in new buffers. -/
theorem improve_simulates {b : Buffers α} (hb : b.Fit s)
    (hsound : b.candidate.Sound s.graph.nodeCount s.config.k) :
    Run.Simulates (Scope.Image f base base')
      (fun b₁ r' => b₁.Fit s ∧
        b₁.arena.current.mapCost f = ⟨r'.2.2.2.assignment, r'.2.2.2.cost⟩ ∧
        b₁.arena.best = b.arena.best)
      (s.improve b)
      (s'.neighborhoodSearch.compute s'.localSearch s'.localSearch.workspace
        (.blank s'.graph.nodeCount s'.config.k) (b.candidate.mapCost f)) := by
  rw [improve, ← bind_pure (s'.neighborhoodSearch.compute _ _ _ _)]
  refine (h.searches.compute_simulates hb.workspace
    ⟨Array.size_replicate, Array.size_replicate⟩ hb.neighbor
    ⟨Assignment.size_zero _, Tally.size_zero _⟩ hsound).bind ?_
  rintro ⟨_, w, neighbor, found⟩ ⟨_, w', neighbor', found'⟩ hfound
  obtain rfl : found' = found.mapCost f := hfound.best_eq
  have hsize := hfound.sound.legal.size_eq
  exact Run.simulates_pure ⟨⟨hsize, hb.size_best, hfound.sound.agrees.size_eq, hfound.fits,
    hfound.neighbor⟩, rfl, rfl⟩

/-- **A trial in used buffers** makes of the best candidate what a trial in new buffers
makes of it. -/
theorem trial_simulates (index : Nat) {b : Buffers α} {best : Slot β}
    (hb : Buffers.Image f s b best) :
    Run.Simulates (Scope.Image f base base')
      (fun r r' => r'.1 = r.1 ∧ Buffers.Image f s r.2 r'.2) (s.trial index b)
      (s'.freshTrial index best) := by
  rw [trial, freshTrial, hb.best_eq]
  refine (Run.simulates_begin _).bind fun _ _ _ => ?_
  refine (h.construct_simulates hworkers index hb.fit).bind ?_
  rintro b₁ ⟨a, t⟩ ⟨hb₁, hcandidate, hsound, hbest₁⟩
  have hassignment : b₁.arena.current.assignment = a := congrArg Candidate.assignment hcandidate
  have hcell : b₁.candidate.mapCost f = ⟨a, t, .worst⟩ := by rw [hcandidate]; rfl
  refine Run.simulates_poll.bind_eq fun stop => ?_
  dsimp only
  rw [← hcell, ← hassignment, ← hbest₁]
  cases stop with
  | true =>
      refine (h.score_simulates hb₁ hsound).bind ?_
      rintro b₂ cost ⟨hb₂, hcurrent, hbest₂⟩
      rw [← hcurrent, ← hbest₂]
      refine (h.compete_simulates index hb₂).bind ?_
      rintro ⟨improved, b₃⟩ ⟨_, best₃⟩ ⟨rfl, hb₃⟩
      refine (Run.simulates_finish _).bind fun _ _ _ => ?_
      exact Run.simulates_pure ⟨rfl, hb₃⟩
  | false =>
      refine (h.improve_simulates hb₁ hsound).bind ?_
      rintro b₂ ⟨_, _, _, found⟩ ⟨hb₂, hcurrent, hbest₂⟩
      dsimp only at hcurrent ⊢
      have hcost : found.cost = b₂.arena.current.cost.map f := (congrArg Slot.cost hcurrent).symm
      rw [← hcurrent, ← hbest₂, hcost]
      refine (h.compete_simulates index hb₂).bind ?_
      rintro ⟨improved, b₃⟩ ⟨_, best₃⟩ ⟨rfl, hb₃⟩
      dsimp only at hb₃ ⊢
      rw [hb₃.best_eq]
      refine (Run.simulates_count _).bind fun _ _ _ => ?_
      refine (Run.simulates_note (.trialEnd index b₂.arena.current.cost b₃.arena.best.cost
        _)).bind fun _ _ _ => ?_
      refine (Run.simulates_finish _).bind fun _ _ _ => ?_
      exact Run.simulates_pure ⟨rfl, hb₃.fit, rfl⟩

theorem trials_simulates {remaining index : Nat} {b : Buffers α} {best : Slot β}
    (hb : Buffers.Image f s b best) :
    Run.Simulates (Scope.Image f base base') (Buffers.Image f s) (s.trials remaining index b)
      (s'.freshTrials remaining index best) := by
  induction remaining generalizing index b best with
  | zero =>
      rw [trials, freshTrials]
      exact Run.simulates_pure hb
  | succ remaining ih =>
      rw [trials, freshTrials]
      refine Run.simulates_poll.bind_eq fun stop => ?_
      cases stop with
      | true => exact Run.simulates_pure hb
      | false =>
          refine (h.trial_simulates hworkers index hb).bind ?_
          rintro ⟨_, b₁⟩ ⟨goOn, best₁⟩ ⟨rfl, hb₁⟩
          cases goOn with
          | true => exact ih hb₁
          | false => exact Run.simulates_pure hb₁

theorem grasp_simulates :
    Run.Simulates (Scope.Image f base base') (Buffers.Image f s) s.grasp s'.freshGrasp := by
  have hstart : Buffers.Image f s s.buffers ⟨.zero s'.graph.nodeCount, .worst⟩ := by
    rw [h.nodeCount_eq]
    exact ⟨buffers_fit, rfl⟩
  rw [grasp, freshGrasp, h.iterations_eq]
  refine (Run.simulates_begin _).bind fun _ _ _ => ?_
  refine (h.trials_simulates hworkers hstart).bind fun b best hb => ?_
  refine (Run.simulates_finish _).bind fun _ _ _ => ?_
  exact Run.simulates_pure hb

end Twins

omit [Weight α] [Weight β] in
/-- Two runs agree at the start if they draw from the same seed and poll the same
condition. -/
theorem scope_image (f : α → β) (s : Solver α) (s' : Solver β)
    (hcondition : s'.condition = s.condition) (seed : UInt64) (first : Entry α)
    (first' : Entry β) :
    Scope.Image f ⟨max s.config.concurrency 1, #[first]⟩ ⟨max s'.config.concurrency 1, #[first']⟩
      { s.scope seed with journal := #[first] } { s'.scope seed with journal := #[first'] } where
  concurrency_eq := rfl
  concurrency_eq' := rfl
  stream_eq := rfl
  termination_eq := hcondition
  statistics_eq := rfl
  journal_eq := ⟨#[], Array.append_empty.symm, by simp [Journal.mapCosts]⟩

/-! ### Runs -/

/-- Two reports show the same up to the change of the costs, but for the first entries
of their journals, which name the settings of the two runs. -/
structure ReportImage (f : α → β) (first : Entry α) (first' : Entry β) (r : Report α)
    (r' : Report β) : Prop where
  answer_eq : r'.answer = r.answer.mapCost f
  termination_eq : r'.termination = r.termination
  journal_eq : ∃ j : Journal α, r.journal = #[first] ++ j ∧ r'.journal = #[first'] ++ j.mapCosts f

/-- The seed that a run uses. -/
def seedOf (s : Solver α) (freshSeed : UInt64) : UInt64 :=
  (s.config.randomSeed.map UInt64.ofNat).getD freshSeed

/-- **A run in shared buffers is like the plain run of a twin.** -/
theorem Twins.compute_alike [Weight.Ordered α] [Weight.Ordered β] {f : α → β} {s : Solver α}
    {s' : Solver β} (h : Twins f s s') (seed : UInt64) :
    Alike (ReportImage f (.noted (.solveStart (s.settings (s.seedOf seed))))
        (.noted (.solveStart (s'.settings (s.seedOf seed)))))
      (s.compute seed) (s'.computeFresh seed) := by
  rw [compute, computeFresh]
  dsimp only
  rw [if_neg (Nat.pos_iff_ne_zero.1 h.suits.nodeCount_pos), h.randomSeed_eq, ← seedOf, runIn]
  have hworkers : max s'.config.concurrency 1 = max s.config.concurrency 1 := by rw [h.config_eq]
  have hcondition : s'.condition = s.condition := by
    rw [condition, condition, h.timeLimit_eq, h.termination_eq]
  refine (h.grasp_simulates hworkers _ _ (scope_image f s s' hcondition _ _ _)).bind ?_
  rintro ⟨b, scope⟩ ⟨best, scope'⟩ ⟨hb, hscope⟩
  obtain rfl : best = b.arena.best.mapCost f := hb.best_eq
  dsimp only at hscope ⊢
  have hcallers : s'.callersPart scope'.termination = s.callersPart scope.termination := by
    unfold callersPart
    rw [h.timeLimit_eq, hscope.termination_eq]
  rw [hscope.statistics_eq]
  exact .ok ⟨rfl, hcallers, hscope.journal_push (.noted (.solveEnd b.arena.best.cost _ _))⟩

/-! ### Sharing the buffers -/

omit [Weight α] in
theorem ReportImage.eq_of_id {first : Entry α} {r r' : Report α}
    (h : ReportImage id first first r r') : r = r' := by
  obtain ⟨j, hj, hj'⟩ := h.journal_eq
  have hanswer : r'.answer = r.answer := by rw [h.answer_eq, Answer.mapCost_id]
  have hjournal : r'.journal = r.journal := by rw [hj', hj, Journal.mapCosts_id]
  have htermination := h.termination_eq
  cases r
  cases r'
  cases hanswer
  cases hjournal
  cases htermination
  rfl

theorem Suits.compute_eq [Weight.Ordered α] {s : Solver α} (hs : s.Suits) (seed : UInt64) :
    s.compute seed = s.computeFresh seed := by
  refine Alike.eq_of_alike (((Twins.refl hs).compute_alike seed).mono ?_)
  intro r r' h
  exact h.eq_of_id

/-- **Sharing the buffers cannot be seen.** A run whose trials work in the buffers that
earlier trials have left gives the report of the run whose trials work in new ones,
to the last entry of its journal, or ends in the same fault. -/
theorem compute_eq_computeFresh [Weight.Ordered α] {l : EdgeList α} {g : Graph α} {c : Config}
    (hbuild : l.build = .ok g) (hpos : 0 < g.nodeCount) (hword : g.nodeCount < Tally.modulus)
    (haccepted : c.problemFor? g.nodeCount = .ok none) (hk : c.k < 2 ^ 32) (minBatch : Nat)
    (termination : Option Termination) (listeners : Nat) (seed : UInt64) :
    let s : Solver α := ⟨g, c, .random minBatch, termination, listeners⟩
    s.compute seed = s.computeFresh seed := by
  intro s
  have hs : s.Suits :=
    suits_of_build hbuild hpos hword haccepted hk minBatch termination listeners
  exact hs.compute_eq seed

/-- Three trials on the undirected triangle, each with neighborhoods of order one and two,
in shared and in new buffers. -/
theorem fresh_triangle :
    let s : Solver Rat := ⟨(EdgeList.triangle true).toGraph,
      { Config.default with iterations := 3, vnsMaxNeighborhoodOrder := 2 }, .random 1, none, 0⟩
    ∃ report, s.compute 7 = .ok report ∧ s.computeFresh 7 = .ok report := by
  intro s
  have hs : s.Suits := suits_of_build (EdgeList.build_triangle true) (by decide) (by decide)
    (by decide) (by decide) 1 none 0
  have hfresh : s.compute 7 = s.computeFresh 7 :=
    compute_eq_computeFresh (EdgeList.build_triangle true) (c := s.config) (by decide)
      (by decide) (by decide) (by decide) 1 none 0 7
  rcases compute_concluded hs 7 with ⟨-, -, -, hwide, -⟩ | ⟨report, -, -, hcompute, -⟩
  · exact absurd hwide (by decide)
  · exact ⟨report, hcompute, hfresh.symm.trans hcompute⟩

/-- **Runs on twin problems are alike.** -/
theorem Twins.compute_twins [Weight.Ordered α] [Weight.Ordered β] {f : α → β} {s : Solver α}
    {s' : Solver β} (h : Twins f s s') (hs' : s'.Suits) (seed : UInt64) :
    Alike (ReportImage f (.noted (.solveStart (s.settings (s.seedOf seed))))
        (.noted (.solveStart (s'.settings (s.seedOf seed)))))
      (s.compute seed) (s'.compute seed) := by
  rw [hs'.compute_eq]
  exact h.compute_alike seed

omit [Weight α] [Weight β] in
theorem ReportImage.messages_eq {f : α → β} {settings settings' : RunSettings} {r : Report α}
    {r' : Report β} (h : ReportImage f (.noted (.solveStart settings))
      (.noted (.solveStart settings')) r r') :
    r'.journal.messages = r.journal.messages.map (ScoredTrial.mapCost f) := by
  obtain ⟨j, hj, hj'⟩ := h.journal_eq
  rw [hj, hj', Journal.messages_append, Journal.messages_append, Journal.messages_mapCosts,
    List.map_append]
  rfl

end KCut.Solver
