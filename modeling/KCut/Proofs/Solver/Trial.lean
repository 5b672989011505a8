import KCut.Proofs.Config.Accepted
import KCut.Proofs.Construction.Place
import KCut.Proofs.NeighborhoodSearch.Search
import KCut.Proofs.Solver.Report
import KCut.Proofs.Solver.Score

/-!
# KCut.Proofs.Solver.Trial

One trial of a run, and what it does to the best slot.

Between two trials the best slot is either `Unscored`, as it was at the start, or
`Held` by a candidate that some trial has scored. A trial whose candidate gets a
cost leaves the slot held, whoever wins (`Competed.held`). A trial can also end
without a cost: a neighborhood search that is stopped at its first poll has scored
nothing, and its candidate loses against everything. A trial that is not stopped at
all brings a stable candidate into the competition (`trial_gives`).
-/

namespace KCut.Solver

open NeighborhoodSearch (Kept Scored Spare Overflow)

/-- A solver with random placement whose settings are accepted for its graph, and
which fits into machine words. -/
structure Suits {α : Type} [Weight α] (s : Solver α) : Prop where
  graph : s.graph.WellFormed
  nodeCount_pos : 0 < s.graph.nodeCount
  nodeCount_lt : s.graph.nodeCount < Tally.modulus
  accepted : s.config.Accepted s.graph.nodeCount
  k_lt : s.config.k < 2 ^ 32
  random : ∃ minBatch, s.construction = .random minBatch

section

variable {α : Type} [Weight α] {s : Solver α}

namespace Suits

theorem size_minSizes (hs : s.Suits) :
    s.config.resolvedMinSizes.toArray.size = s.config.k := by
  rw [List.size_toArray, hs.accepted.length_minSizes]

theorem ready (hs : s.Suits) : s.localSearch.Ready :=
  LocalSearch.ready_new hs.graph hs.nodeCount_lt _ hs.size_minSizes _ _

theorem searches_match (hs : s.Suits) :
    NeighborhoodSearch.Matches s.neighborhoodSearch s.localSearch :=
  ⟨hs.ready, rfl, rfl, rfl, hs.k_lt⟩

end Suits

theorem suits_of_build {l : EdgeList α} {g : Graph α} {c : Config} (hbuild : l.build = .ok g)
    (hpos : 0 < g.nodeCount) (hword : g.nodeCount < Tally.modulus)
    (haccepted : c.problemFor? g.nodeCount = .ok none) (hk : c.k < 2 ^ 32) (minBatch : Nat)
    (termination : Option Termination) (listeners : Nat) :
    Suits ⟨g, c, .random minBatch, termination, listeners⟩ where
  graph := EdgeList.wellFormed_of_build hbuild
  nodeCount_pos := hpos
  nodeCount_lt := hword
  accepted := Config.accepted_of_problemFor? haccepted
  k_lt := hk
  random := ⟨minBatch, rfl⟩

/-! ### Buffers -/

/-- The candidate in the current slot. -/
def Buffers.candidate (b : Buffers α) : Candidate α :=
  ⟨b.arena.current.assignment, b.tally, b.arena.current.cost⟩

/-- The buffers have the sizes that trials work with. -/
structure Buffers.Fit (s : Solver α) (b : Buffers α) : Prop where
  size_current : b.arena.current.assignment.size = s.graph.nodeCount
  size_best : b.arena.best.assignment.size = s.graph.nodeCount
  size_tally : b.tally.size = s.config.k
  workspace : b.workspace.Fits s.localSearch
  neighbor : Spare s.localSearch b.neighbor

theorem buffers_fit : s.buffers.Fit s where
  size_current := Assignment.size_zero _
  size_best := Assignment.size_zero _
  size_tally := Tally.size_zero _
  workspace := ⟨Array.size_replicate, Array.size_replicate⟩
  neighbor := ⟨Assignment.size_zero _, Tally.size_zero _⟩

/-- The slots keep the sizes of their assignments when they change places. -/
theorem Buffers.Fit.promote {b : Buffers α} (hb : b.Fit s) (objective : Objective) :
    Fit s { b with arena := (b.arena.promote objective).2 } := by
  rw [Arena.promote]
  split
  · exact ⟨hb.size_best, hb.size_current, hb.size_tally, hb.workspace, hb.neighbor⟩
  · exact hb

end

/-- Nothing has been scored: the best slot is as it was at the start. -/
structure Unscored (s : Solver Rat) (best : Slot Rat) (scope : Scope Rat) : Prop where
  best_eq : best = ⟨.zero s.graph.nodeCount, .worst⟩
  improvements_eq : scope.statistics.bestImprovements = 0

/-- The best slot holds a legal candidate above all minimums with the weight of its
cut, which was scored by a trial and counted when it won. -/
structure Held (s : Solver Rat) (best : Slot Rat) (scope : Scope Rat) : Prop where
  legal : best.assignment.Legal s.graph.nodeCount s.config.k
  fills : best.assignment.Fills s.config.resolvedMinSizes.toArray s.config.k
  cost_eq : best.cost = .of (s.graph.cut best.assignment)
  improvements_pos : 0 < scope.statistics.bestImprovements
  scored : ∃ trial ∈ scope.journal.scoredTrials,
    trial.assignment = best.assignment ∧ trial.cost = best.cost

variable {s : Solver Rat} {best : Slot Rat} {scope scope' : Scope Rat}

/-- What has been scored and counted stays so. -/
theorem Held.mono (h : Held s best scope)
    (himprovements : scope.statistics.bestImprovements ≤ scope'.statistics.bestImprovements)
    (hscored : ∀ trial ∈ scope.journal.scoredTrials, trial ∈ scope'.journal.scoredTrials) :
    Held s best scope' := by
  obtain ⟨trial, hmem, heq⟩ := h.scored
  exact ⟨h.legal, h.fills, h.cost_eq, Nat.lt_of_lt_of_le h.improvements_pos himprovements,
    trial, hscored trial hmem, heq⟩

theorem Held.quiet {polls : List Bool} (h : Held s best scope) (hquiet : scope.Quiet polls scope') :
    Held s best scope' :=
  h.mono (Nat.le_of_eq hquiet.improvements_eq.symm)
    fun trial hmem => by rw [hquiet.scored_eq]; exact hmem

theorem Unscored.quiet {polls : List Bool} (h : Unscored s best scope)
    (hquiet : scope.Quiet polls scope') : Unscored s best scope' :=
  ⟨h.best_eq, hquiet.improvements_eq.trans h.improvements_eq⟩

/-! ### Competitions -/

/-- What a competition does: the slots change places if the current candidate is
better than the best one, which is then counted. -/
structure Competed (s : Solver Rat) (index : Nat) (b : Buffers Rat) (scope : Scope Rat)
    (b' : Buffers Rat) (scope' : Scope Rat) : Prop extends scope.Polled [] scope' where
  buffers_eq : b' = { b with arena := (b.arena.promote s.config.objective).2 }
  improvements_eq : scope'.statistics.bestImprovements = scope.statistics.bestImprovements +
    if (b.arena.promote s.config.objective).1 then 1 else 0
  scored_eq : scope'.journal.scoredTrials =
    scope.journal.scoredTrials ++ [⟨index, b.arena.current.cost, b.arena.current.assignment⟩]

theorem compete_gives (s : Solver Rat) (index : Nat) (b : Buffers Rat) (scope : Scope Rat) :
    (s.compete index b).Gives scope fun r scope' => Competed s index b scope r.2 scope' := by
  rw [compete]
  simp only [Run.gives_bind, Run.gives_enter]
  cases hwins : s.config.objective.prefers b.arena.current.cost b.arena.best.cost with
  | true =>
      have hpromote := Arena.promote_of_better hwins
      simp only [hpromote, if_true, Run.gives_bind, Run.gives_count, Run.gives_note,
        Run.gives_enter, Run.gives_pure]
      refine ⟨⟨?_, .refl _⟩, by rw [hpromote], by rw [hpromote]; rfl, ?_⟩
      · simp [Journal.answers]
      · simp [Journal.scoredTrials]
  | false =>
      have hpromote := Arena.promote_of_not_better hwins
      simp only [hpromote, Bool.false_eq_true, if_false, Run.gives_pure]
      refine ⟨⟨?_, .refl _⟩, by rw [hpromote], by rw [hpromote]; rfl, ?_⟩
      · simp [Journal.answers]
      · simp [Journal.scoredTrials]

namespace Competed

variable {index : Nat} {b b' : Buffers Rat}

theorem fit (h : Competed s index b scope b' scope') (hb : b.Fit s) : b'.Fit s := by
  rw [h.buffers_eq]
  exact hb.promote _

/-- **A candidate with a cost leaves the best slot held**: it wins against an empty
slot, and whatever it loses against is held already. -/
theorem held (h : Competed s index b scope b' scope') (hkept : Kept s.localSearch b.candidate)
    (hscored : Scored s.localSearch b.candidate)
    (hbest : Unscored s b.arena.best scope ∨ Held s b.arena.best scope) :
    Held s b'.arena.best scope' := by
  have hcost : b.arena.current.cost = .of (s.graph.cut b.arena.current.assignment) := hscored
  cases hwins : s.config.objective.prefers b.arena.current.cost b.arena.best.cost with
  | true =>
      -- The winner is scored, and has just been counted.
      have hpromote := Arena.promote_of_better hwins
      have hb' : b'.arena.best = b.arena.current := by rw [h.buffers_eq, hpromote]
      have hcounted := h.improvements_eq
      rw [hpromote, if_pos rfl] at hcounted
      refine ⟨hb' ▸ hkept.sound.legal, hb' ▸ hkept.fills, hb' ▸ hcost, by omega, ?_⟩
      rw [h.scored_eq, hb']
      exact ⟨_, List.mem_append_right _ (List.mem_singleton_self _), rfl, rfl⟩
  | false =>
      have hpromote := Arena.promote_of_not_better hwins
      have hb' : b'.arena.best = b.arena.best := by rw [h.buffers_eq, hpromote]
      -- The best slot cannot be empty: every cost is better than none.
      have hheld : Held s b.arena.best scope := by
        refine hbest.resolve_left ?_
        intro hempty
        rw [hempty.best_eq, hcost] at hwins
        cases hobjective : s.config.objective with
        | maximize => simp [hobjective, Objective.beatsWorst] at hwins
        | minimize => simp [hobjective, Objective.beatsWorst] at hwins
      rw [hb']
      refine hheld.mono (by rw [h.improvements_eq]; exact Nat.le_add_right _ _) ?_
      intro trial hmem
      rw [h.scored_eq]
      exact List.mem_append_left _ hmem

/-- A candidate without a cost changes nothing but the journal. -/
theorem unchanged (h : Competed s index b scope b' scope')
    (hworst : b.arena.current.cost = .worst) :
    b'.arena.best = b.arena.best ∧
      scope'.statistics.bestImprovements = scope.statistics.bestImprovements := by
  have hloses : s.config.objective.prefers b.arena.current.cost b.arena.best.cost = false := by
    rw [hworst, Objective.prefers_worst]
  have hpromote := Arena.promote_of_not_better hloses
  have hcounted := h.improvements_eq
  rw [hpromote] at hcounted
  exact ⟨by rw [h.buffers_eq, hpromote], hcounted⟩

theorem unscored (h : Competed s index b scope b' scope')
    (hworst : b.arena.current.cost = .worst) (hbest : Unscored s b.arena.best scope) :
    Unscored s b'.arena.best scope' := by
  obtain ⟨hb', hcounted⟩ := h.unchanged hworst
  exact ⟨hb'.trans hbest.best_eq, hcounted.trans hbest.improvements_eq⟩

theorem held_of_worst (h : Competed s index b scope b' scope')
    (hworst : b.arena.current.cost = .worst) (hbest : Held s b.arena.best scope) :
    Held s b'.arena.best scope' := by
  obtain ⟨hb', hcounted⟩ := h.unchanged hworst
  rw [hb']
  refine hbest.mono (Nat.le_of_eq hcounted.symm) ?_
  intro trial hmem
  rw [h.scored_eq]
  exact List.mem_append_left _ hmem

theorem stable (h : Competed s index b scope b' scope')
    (hcurrent : s.localSearch.StableSlot b.arena.current)
    (hbest : s.localSearch.StableSlot b.arena.best) : s.localSearch.StableSlot b'.arena.best := by
  rw [h.buffers_eq, Arena.promote]
  split
  · exact hcurrent
  · exact hbest

end Competed

/-! ### The phases of a trial -/

theorem construct_gives (hs : s.Suits) (index : Nat) {b : Buffers Rat} (hb : b.Fit s)
    (scope : Scope Rat) :
    (s.construct index b).Gives scope fun b' scope' =>
      b'.Fit s ∧ Kept s.localSearch b'.candidate ∧ b'.arena.current.cost = .worst ∧
        b'.arena.best = b.arena.best ∧ scope.Quiet [] scope' := by
  obtain ⟨minBatch, hrandom⟩ := hs.random
  have hkword : s.config.k ≤ 2 ^ 64 := (Nat.le_of_lt hs.k_lt).trans (by decide)
  rw [construct, hrandom]
  refine Run.gives_bind.2 ?_
  refine (RandomPlacement.build_gives hs.nodeCount_lt hs.accepted.k_pos hkword hs.size_minSizes
    hs.accepted.sum_minSizes hb.size_current hb.size_tally _ scope).mono ?_
  intro r scope' hbuilt
  obtain ⟨hlegal, hagrees, hfills, hquiet⟩ := hbuilt
  rw [Run.gives_pure]
  refine ⟨⟨hlegal.size_eq, hb.size_best, hagrees.size_eq, hb.workspace, hb.neighbor⟩,
    ⟨⟨hlegal, hagrees⟩, hfills, Or.inl rfl⟩, rfl, rfl, hquiet⟩

theorem score_gives (hs : s.Suits) {b : Buffers Rat} (hb : b.Fit s)
    (hkept : Kept s.localSearch b.candidate) (scope : Scope Rat) :
    (s.score b).Gives scope fun b' scope' =>
      b'.Fit s ∧ Kept s.localSearch b'.candidate ∧ Scored s.localSearch b'.candidate ∧
        b'.arena.best = b.arena.best ∧ scope.Quiet [] scope' := by
  refine (score_writes hs.graph hb.size_current scope).mono ?_
  intro b' scope' hscored
  obtain ⟨rfl, hquiet⟩ := hscored
  exact ⟨⟨hb.size_current, hb.size_best, hb.size_tally, hb.workspace, hb.neighbor⟩,
    ⟨⟨hkept.sound.legal, hkept.sound.agrees⟩, hkept.fills, Or.inr rfl⟩, rfl, rfl, hquiet⟩

/-- A search scores the candidate, unless it is a neighborhood search that its first
poll stops: then the candidate stays as it was. -/
theorem improve_gives (hs : s.Suits) {b : Buffers Rat} (hb : b.Fit s)
    (hkept : Kept s.localSearch b.candidate) (scope : Scope Rat) :
    (s.improve b).GivesOr (Overflow s.config.vnsMaxNeighborhoodOrder s.config.k) scope
      fun b' scope' => b'.Fit s ∧ Kept s.localSearch b'.candidate ∧
        b'.arena.best = b.arena.best ∧ ∃ polls, scope.Quiet polls scope' ∧
          (if s.config.vnsMaxNeighborhoodOrder = 0 then Scored s.localSearch b'.candidate
          else NeighborhoodSearch.Outcome s.localSearch b.candidate b'.candidate polls) ∧
          s.localSearch.KeepsStable polls b.arena.current b'.arena.current := by
  rw [improve]
  refine (NeighborhoodSearch.compute_gives hs.searches_match hb.workspace hb.neighbor hkept
    scope).bind ?_
  intro r scope' hsearched
  obtain ⟨hworkspace, hneighbor, hbest, polls, hquiet, houtcome, hstable⟩ := hsearched
  refine Or.inl (Run.gives_pure.2 ?_)
  exact ⟨⟨hbest.sound.legal.size_eq, hb.size_best, hbest.sound.agrees.size_eq, hworkspace,
    hneighbor⟩, hbest, rfl, polls, hquiet, houtcome, hstable⟩

/-! ### Trials -/

/-- Whether a run with these answers to its polls gives no candidate a cost: it is
stopped in front of a trial, or no trial is left; or a trial goes on after its
construction, its neighborhood search is stopped at once, and the rest of the run
scores nothing either. -/
def nothingScored (maxOrder : Nat) : List Bool → Bool
  | [] => true
  | true :: _ => true
  | false :: false :: true :: rest => decide (0 < maxOrder) && nothingScored maxOrder rest
  | _ => false

/-- A plain search scores the candidate of the first trial that is begun. -/
theorem nothingScored_zero (answers : List Bool) :
    nothingScored 0 (false :: answers) = false := by
  match answers with
  | [] | true :: _ | [false] | false :: false :: _ => rfl
  | false :: true :: _ => simp [nothingScored]

/-- How a trial that was begun has ended, by the answers to its polls: with a held
best slot, or without a cost and with the best slot as it was. -/
inductive TrialEnd (s : Solver Rat) (b : Buffers Rat) (scope : Scope Rat) :
    Bool × Buffers Rat → Scope Rat → List Bool → Prop
  | held {r : Bool × Buffers Rat} {scope' : Scope Rat} {polls : List Bool}
      (hheld : Held s r.2.arena.best scope')
      (hpolls : ∀ rest, nothingScored s.config.vnsMaxNeighborhoodOrder
        (false :: (polls ++ rest)) = false) :
      TrialEnd s b scope r scope' polls
  | lost {b' : Buffers Rat} {scope' : Scope Rat}
      (horder : 0 < s.config.vnsMaxNeighborhoodOrder)
      (hunscored : Unscored s b.arena.best scope → Unscored s b'.arena.best scope')
      (hheld : Held s b.arena.best scope → Held s b'.arena.best scope') :
      TrialEnd s b scope (true, b') scope' [false, true]

/-- What happens between a competition and the end of the trial does not matter. -/
theorem TrialEnd.quiet {b : Buffers Rat} {r : Bool × Buffers Rat} {scope'' : Scope Rat}
    {polls more : List Bool} (h : TrialEnd s b scope r scope' polls)
    (hquiet : scope'.Quiet more scope'') : TrialEnd s b scope r scope'' polls := by
  cases h with
  | held hheld hpolls => exact .held (hheld.quiet hquiet) hpolls
  | lost horder hunscored hheld =>
      exact .lost horder (fun h => (hunscored h).quiet hquiet) fun h => (hheld h).quiet hquiet

theorem TrialEnd.unscored_or_held {b : Buffers Rat} {r : Bool × Buffers Rat} {polls : List Bool}
    (h : TrialEnd s b scope r scope' polls)
    (hbest : Unscored s b.arena.best scope ∨ Held s b.arena.best scope) :
    Unscored s r.2.arena.best scope' ∨ Held s r.2.arena.best scope' := by
  cases h with
  | held hheld hpolls => exact Or.inr hheld
  | lost horder hunscored hheld => exact hbest.imp hunscored hheld

/-- How a trial ends whose candidate has been searched. -/
theorem Competed.trialEnd {index : Nat} {b b₁ b₂ b₃ : Buffers Rat} {scope₂ scope₃ : Scope Rat}
    {polls : List Bool} (h : Competed s index b₂ scope₂ b₃ scope₃)
    (hbest : Unscored s b.arena.best scope ∨ Held s b.arena.best scope)
    (hsame : b₂.arena.best = b.arena.best) (hquiet : scope.Quiet (false :: polls) scope₂)
    (hworst : b₁.arena.current.cost = .worst) (hkept : Kept s.localSearch b₂.candidate)
    (houtcome : if s.config.vnsMaxNeighborhoodOrder = 0 then Scored s.localSearch b₂.candidate
      else NeighborhoodSearch.Outcome s.localSearch b₁.candidate b₂.candidate polls) :
    TrialEnd s b scope (true, b₃) scope₃ (false :: polls) := by
  have hbest₂ : Unscored s b₂.arena.best scope₂ ∨ Held s b₂.arena.best scope₂ := by
    rw [hsame]
    exact hbest.imp (fun h => h.quiet hquiet) fun h => h.quiet hquiet
  split at houtcome
  · next hplain =>
    refine .held (h.held hkept houtcome hbest₂) fun rest => ?_
    rw [hplain]
    exact nothingScored_zero _
  · next hplain =>
    rcases houtcome with ⟨rfl, hunsearched⟩ | ⟨more, rfl, hscored⟩
    · -- The candidate still has the cost cell of its construction.
      have hworst₂ : b₂.arena.current.cost = .worst :=
        (congrArg Candidate.cost hunsearched).trans hworst
      refine .lost (Nat.pos_of_ne_zero hplain) ?_ ?_
      · intro hunscored
        rw [← hsame] at hunscored
        exact h.unscored hworst₂ (hunscored.quiet hquiet)
      · intro hheld
        rw [← hsame] at hheld
        exact h.held_of_worst hworst₂ (hheld.quiet hquiet)
    · exact .held (h.held hkept hscored hbest₂) fun rest => rfl

/-- **A trial has a result**, unless two community ids overflow. -/
theorem trial_gives (hs : s.Suits) (index : Nat) {b : Buffers Rat} (hb : b.Fit s)
    (hbest : Unscored s b.arena.best scope ∨ Held s b.arena.best scope) :
    (s.trial index b).GivesOr (Overflow s.config.vnsMaxNeighborhoodOrder s.config.k) scope
      fun r scope' => r.2.Fit s ∧ ∃ polls, scope.Polled polls scope' ∧
        TrialEnd s b scope r scope' polls ∧
          s.localSearch.KeepsStable polls b.arena.best r.2.arena.best := by
  rw [trial]
  refine Run.Gives.bindOr (Run.gives_begin.2 ?_)
  refine Run.Gives.bindOr ((construct_gives hs index hb _).mono ?_)
  intro b₁ scope₁ hconstructed
  obtain ⟨hb₁, hkept₁, hworst, hbest₁, hquiet₁⟩ := hconstructed
  refine Run.Gives.bindOr (Run.gives_poll.2 ?_)
  have hbuilt := ((Scope.Quiet.refl scope).task (.began (.trial index))).trans hquiet₁
  have hpolled := hbuilt.polled scope₁.stream.position
  cases hstop : scope₁.termination.poll.1 with
  | true =>
      -- Stopped behind the construction: the candidate is scored as it is.
      rw [hstop] at hpolled
      refine Or.inl (Run.gives_bind.2 ?_)
      refine (score_gives hs hb₁ hkept₁ _).mono ?_
      intro b₂ scope₂ hscoring
      obtain ⟨hb₂, hkept₂, hscored, hbest₂, hquiet₂⟩ := hscoring
      refine Run.gives_bind.2 ((compete_gives s index b₂ scope₂).mono ?_)
      intro r scope₃ hcompeted
      simp only [Run.gives_bind, Run.gives_finish, Run.gives_pure]
      have hquiet := hpolled.trans hquiet₂
      have hend := (Scope.Quiet.refl scope₃).task (.ended (.trial index))
      have hbest' : Unscored s b₂.arena.best scope₂ ∨ Held s b₂.arena.best scope₂ := by
        rw [hbest₂, hbest₁]
        exact hbest.imp (fun h => h.quiet hquiet) fun h => h.quiet hquiet
      refine ⟨hcompeted.fit hb₂, [true], ?_, ?_, ?_⟩
      · exact (hquiet.toPolled.trans hcompeted.toPolled).trans hend.toPolled
      · exact .held ((hcompeted.held hkept₂ hscored hbest').quiet hend) fun rest => rfl
      · exact fun hrunning => absurd (List.mem_singleton_self true) hrunning
  | false =>
      -- Not stopped: whether the candidate is scored is up to the search.
      rw [hstop] at hpolled
      refine (improve_gives hs hb₁ hkept₁ _).bind ?_
      intro b₂ scope₂ hsearched
      obtain ⟨hb₂, hkept₂, hbest₂, polls, hquiet₂, houtcome, hstable⟩ := hsearched
      refine Or.inl (Run.gives_bind.2 ((compete_gives s index b₂ scope₂).mono ?_))
      intro r scope₃ hcompeted
      simp only [Run.gives_bind, Run.gives_count, Run.gives_note, Run.gives_finish,
        Run.gives_pure]
      have hquiet : scope.Quiet (false :: polls) scope₂ := hpolled.trans hquiet₂
      have hcounted := (Scope.Quiet.refl scope₃).counted
        (Statistics.bestImprovements_recordTrial scope₃.statistics)
      have hend := (hcounted.noted (.trialEnd index b₂.arena.current.cost
        r.2.arena.best.cost r.1)).task (.ended (.trial index))
      refine ⟨hcompeted.fit hb₂, false :: polls, ?_, ?_, ?_⟩
      · have hpolls := (hquiet.toPolled.trans hcompeted.toPolled).trans hend.toPolled
        rwa [List.append_nil, List.append_nil] at hpolls
      · exact (hcompeted.trialEnd hbest (hbest₂.trans hbest₁) hquiet hworst hkept₂
          houtcome).quiet hend
      · intro hrunning hbest
        have hcurrent : s.localSearch.StableSlot b₂.arena.current :=
          hstable (List.not_mem_of_not_mem_cons hrunning) fun hscored => absurd hworst hscored
        rw [← hbest₁, ← hbest₂] at hbest
        exact hcompeted.stable hcurrent hbest

end KCut.Solver
