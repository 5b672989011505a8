import KCut.Proofs.Abreast
import KCut.Proofs.NeighborhoodSearch.Unstopped
import KCut.Proofs.Solver.Answer
import KCut.Proofs.Solver.Records
import KCut.Proofs.Twins.Simulation

/-!
# KCut.Proofs.Solver.FirstOrder

Runs with plain local searches against runs with neighborhoods of order one.

A search whose orders end at one finds what a plain local search finds and draws nothing. It
makes more entries, counts more and leaves other numbers in the workspace and in the neighbor;
but none of this reaches the candidates, the stream or the messages. So two runs that nothing
stops, one with each kind of search, stay `Level` from trial to trial (`grasp_simulates`), and
end with the same answer.
-/

namespace KCut

variable {α β : Type}

/-! ### Level runs -/

/-- Nothing stops either run, and they have drawn the same words and sent the same messages. -/
structure Scope.Level (s s' : Scope α) : Prop where
  concurrency_eq : s'.concurrency = s.concurrency
  stream_eq : s'.stream = s.stream
  running : s.termination.NeverFires
  running' : s'.termination.NeverFires
  messages_eq : s'.journal.messages = s.journal.messages

namespace Scope.Level

variable {s s' t t' : Scope α}

theorem entered (h : s.Level s') (entry entry' : Entry α)
    (hentry : Journal.messages #[entry'] = Journal.messages #[entry]) :
    Level { s with journal := s.journal.push entry }
      { s' with journal := s'.journal.push entry' } where
  concurrency_eq := h.concurrency_eq
  stream_eq := h.stream_eq
  running := h.running
  running' := h.running'
  messages_eq := by
    rw [Array.push_eq_append, Array.push_eq_append, Journal.messages_append,
      Journal.messages_append, h.messages_eq, hentry]

end Scope.Level

/-- Level runs go on at every poll. -/
theorem Run.simulates_running :
    Run.Simulates (@Scope.Level α) (fun stop stop' => stop = false ∧ stop' = false) Run.poll
      Run.poll := by
  intro s s' hs
  have hlevel := hs.entered (.polled s.termination.poll.1 s.stream.position)
    (.polled s'.termination.poll.1 s'.stream.position) rfl
  refine .ok ⟨⟨hs.running.poll.1, hs.running'.poll.1⟩, ?_⟩
  exact ⟨hs.concurrency_eq, hs.stream_eq, hs.running.poll.2, hs.running'.poll.2,
    hlevel.messages_eq⟩

/-- **Level runs make the same of the same step.** -/
theorem Run.Composed.simulates {m : Run α β} (h : m.Composed) :
    Run.Simulates Scope.Level Eq m m := by
  induction h with
  | pure b => exact Run.simulates_pure rfl
  | bind hm hf ihm ihf => exact ihm.bind_eq ihf
  | check x => exact Run.simulates_check (.refl x)
  | draw low high =>
      intro s s' hs
      rw [Run.draw, Run.draw, hs.stream_eq]
      cases s.stream.range low high with
      | ok r => exact .ok ⟨rfl, hs.concurrency_eq, rfl, hs.running, hs.running', hs.messages_eq⟩
      | error fault => exact .fault fault
  | split =>
      intro s s' hs
      rw [Run.split, Run.split, hs.stream_eq]
      exact .ok ⟨rfl, hs.concurrency_eq, rfl, hs.running, hs.running', hs.messages_eq⟩
  | concurrency => exact fun s s' hs => .ok ⟨hs.concurrency_eq.symm, hs⟩
  | poll =>
      refine Run.simulates_running.mono ?_
      rintro _ _ ⟨rfl, rfl⟩
      rfl
  | enter entry hentry => exact fun s s' hs => .ok ⟨rfl, hs.entered entry entry rfl⟩
  | count change =>
      exact fun s s' hs => .ok ⟨rfl, hs.concurrency_eq, hs.stream_eq, hs.running, hs.running',
        hs.messages_eq⟩

/-- The scope `s'` is `s` after steps that draw nothing, send nothing and are not stopped. -/
structure Scope.Aside (s s' : Scope α) : Prop where
  concurrency_eq : s'.concurrency = s.concurrency
  stream_eq : s'.stream = s.stream
  running : s'.termination.NeverFires
  messages_eq : s'.journal.messages = s.journal.messages

/-- Such steps may differ between level runs. -/
theorem Scope.Level.aside {s s' t t' : Scope α} (h : s.Level s') (ht : s.Aside t)
    (ht' : s'.Aside t') : t.Level t' where
  concurrency_eq := by rw [ht'.concurrency_eq, h.concurrency_eq, ht.concurrency_eq]
  stream_eq := by rw [ht'.stream_eq, h.stream_eq, ht.stream_eq]
  running := ht.running
  running' := ht'.running
  messages_eq := by rw [ht'.messages_eq, h.messages_eq, ht.messages_eq]

namespace Solver

open NeighborhoodSearch (Kept Overflow Spare)

/-- The solver with another order at which its neighborhood searches end. -/
def withOrder (s : Solver α) (order : Nat) : Solver α :=
  { s with config := { s.config with vnsMaxNeighborhoodOrder := order } }

theorem Suits.withOrder [Weight α] {s : Solver α} (hs : s.Suits) (order : Nat) :
    (s.withOrder order).Suits where
  graph := hs.graph
  nodeCount_pos := hs.nodeCount_pos
  nodeCount_lt := hs.nodeCount_lt
  accepted := ⟨hs.accepted.k_pos, hs.accepted.iterations_pos, hs.accepted.concurrency_pos,
    hs.accepted.minBatchSize_pos, hs.accepted.retries_pos, hs.accepted.length_minSizes,
    hs.accepted.sum_minSizes⟩
  k_lt := hs.k_lt
  random := hs.random

variable {s : Solver Rat}

/-! ### Searches that nothing stops -/

/-- **A search of order one at most is a local search**, aside from what it enters and counts. -/
theorem improve_descends (hs : s.Suits) (hsmall : s.config.vnsMaxNeighborhoodOrder ≤ 1)
    {b : Buffers Rat} (hb : b.Fit s) (hkept : Kept s.localSearch b.candidate)
    (hworst : b.arena.current.cost = .worst) {scope : Scope Rat}
    (hrunning : scope.termination.NeverFires) :
    (s.improve b).Gives scope fun b' scope' => b'.Fit s ∧
      (∃ rounds, s.localSearch.Descends b.candidate rounds false b'.candidate) ∧
      b'.arena.best = b.arena.best ∧ scope.Aside scope' := by
  have hdescends : (s.improve b).Gives scope fun b' _ =>
      ∃ rounds, s.localSearch.Descends b.candidate rounds false b'.candidate := by
    rw [improve]
    simp only [Run.gives_bind, Run.gives_pure]
    exact NeighborhoodSearch.compute_of_maxOrder_le_one hs.searches_match hb.workspace hb.neighbor
      hkept.sound hworst hrunning hsmall
  have hstream : (s.improve b).Ensures scope fun _ scope' => scope'.stream = scope.stream := by
    rw [improve]
    simp only [Run.ensures_bind, Run.ensures_pure]
    exact s.neighborhoodSearch.compute_stream _ hsmall _ _ _ scope
  obtain ⟨b', scope', himprove, hdescends⟩ := hdescends
  obtain ⟨hsame, hbest⟩ := improve_keeps himprove
  obtain ⟨hfit, -⟩ := (improve_gives hs hb hkept scope).ensures _ _ himprove
  obtain ⟨j, hlater⟩ := (improve_composed b).later scope _ _ himprove
  exact ⟨b', scope', himprove, hfit, hdescends, hbest, hlater.concurrency_eq,
    hstream _ _ himprove, (hlater.running hrunning).2, hsame.messages_eq⟩

/-! ### Trials -/

variable {order order' : Nat}

/-- The same candidates are in the buffers of both runs. -/
structure Buffers.Alongside (s : Solver Rat) (order order' : Nat) (b b' : Buffers Rat) : Prop where
  fit : b.Fit (s.withOrder order)
  fit' : b'.Fit (s.withOrder order')
  arena_eq : b'.arena = b.arena
  tally_eq : b'.tally = b.tally

variable {b b' : Buffers Rat}

theorem Buffers.Alongside.candidate_eq (h : Alongside s order order' b b') :
    b'.candidate = b.candidate := by
  rw [candidate, candidate, h.arena_eq, h.tally_eq]

/-- The slots hold what the candidate and the best slot tell. -/
theorem Buffers.alongside_of_candidate_eq (hfit : b.Fit (s.withOrder order))
    (hfit' : b'.Fit (s.withOrder order')) (hcandidate : b'.candidate = b.candidate)
    (hbest : b'.arena.best = b.arena.best) : Alongside s order order' b b' := by
  refine ⟨hfit, hfit', ?_, congrArg Candidate.tally hcandidate⟩
  have hassignment : b'.arena.current.assignment = b.arena.current.assignment :=
    congrArg Candidate.assignment hcandidate
  have hcost : b'.arena.current.cost = b.arena.current.cost := congrArg Candidate.cost hcandidate
  obtain ⟨⟨⟨a, cost⟩, best⟩, tally, workspace, neighbor⟩ := b
  obtain ⟨⟨⟨a', cost'⟩, best'⟩, tally', workspace', neighbor'⟩ := b'
  simp_all

theorem builds_withOrder (hs : s.Suits) (order : Nat) : (s.withOrder order).Builds := by
  obtain ⟨minBatch, hrandom⟩ := hs.random
  exact builds_of_random (s := s.withOrder order) hrandom

theorem construct_simulates (hs : s.Suits) (index : Nat) (h : b.Alongside s order order' b') :
    Run.Simulates Scope.Level
      (fun b₁ b₁' => b₁.Alongside s order order' b₁' ∧ Kept s.localSearch b₁.candidate ∧
        b₁.arena.current.cost = .worst)
      ((s.withOrder order).construct index b) ((s.withOrder order').construct index b') := by
  have hbuilt : ∀ scope, ((s.withOrder order).construct index b).Ensures scope fun b₁ _ =>
      b₁.Fit (s.withOrder order) ∧ Kept s.localSearch b₁.candidate ∧
        b₁.arena.current.cost = .worst := by
    intro scope
    refine (construct_gives (hs.withOrder order) index h.fit scope).ensures.mono ?_
    rintro b₁ _ ⟨hfit, hkept, hworst, -⟩
    exact ⟨hfit, hkept, hworst⟩
  have hsame : Run.Simulates Scope.Level
      (fun b₁ b₁' => b₁' = { b' with arena := b₁.arena, tally := b₁.tally })
      ((s.withOrder order).construct index b) ((s.withOrder order').construct index b') := by
    rw [construct, construct, h.arena_eq, h.tally_eq]
    refine (builds_withOrder hs order _ _ _ _ _).simulates.bind_eq fun r => ?_
    exact Run.simulates_pure rfl
  refine (hsame.and_ensures hbuilt).mono ?_
  rintro b₁ _ ⟨⟨hfit, hkept, hworst⟩, rfl⟩
  exact ⟨⟨hfit, ⟨hfit.size_current, hfit.size_best, hfit.size_tally, h.fit'.workspace,
    h.fit'.neighbor⟩, rfl, rfl⟩, hkept, hworst⟩

section

variable (hsmall : order ≤ 1) (hsmall' : order' ≤ 1)

include hsmall hsmall'

/-- **Searches of order zero and of order one make the same of a candidate.** -/
theorem improve_simulates (hs : s.Suits) (h : b.Alongside s order order' b')
    (hkept : Kept s.localSearch b.candidate) (hworst : b.arena.current.cost = .worst) :
    Run.Simulates Scope.Level (Buffers.Alongside s order order')
      ((s.withOrder order).improve b) ((s.withOrder order').improve b') := by
  intro scope scope' hscope
  have hkept' : Kept (s.withOrder order').localSearch b'.candidate := by
    rw [h.candidate_eq]
    exact hkept
  obtain ⟨b₁, scope₁, himprove, hfit, ⟨rounds, hdescends⟩, hbest, haside⟩ :=
    improve_descends (hs.withOrder order) hsmall h.fit hkept hworst hscope.running
  obtain ⟨b₁', scope₁', himprove', hfit', ⟨rounds', hdescends'⟩, hbest', haside'⟩ :=
    improve_descends (hs.withOrder order') hsmall' h.fit' hkept' (by rw [h.arena_eq, hworst])
      hscope.running'
  rw [himprove, himprove']
  rw [h.candidate_eq] at hdescends'
  have hcandidate : b₁'.candidate = b₁.candidate :=
    hdescends.unique hs.ready hdescends' ⟨rfl, rfl⟩
  refine .ok ⟨Buffers.alongside_of_candidate_eq hfit hfit' hcandidate ?_,
    hscope.aside haside haside'⟩
  rw [hbest', hbest, h.arena_eq]

omit hsmall hsmall' in
theorem compete_simulates (index : Nat) (h : b.Alongside s order order' b') :
    Run.Simulates Scope.Level
      (fun r r' => r'.1 = r.1 ∧ r.2.Alongside s order order' r'.2)
      ((s.withOrder order).compete index b) ((s.withOrder order').compete index b') := by
  have hfit := h.fit.promote s.config.objective
  have hfit' := h.fit'.promote s.config.objective
  have hobjective : (s.withOrder order).config.objective = s.config.objective := rfl
  have hobjective' : (s.withOrder order').config.objective = s.config.objective := rfl
  rw [compete, compete, hobjective, hobjective', h.arena_eq]
  rw [h.arena_eq] at hfit'
  refine (Run.Composed.enter _ rfl).simulates.bind_eq fun _ => ?_
  generalize b.arena.promote s.config.objective = promoted at hfit hfit' ⊢
  obtain ⟨improved, arena⟩ := promoted
  cases improved with
  | true =>
      refine (Run.Composed.count _).simulates.bind_eq fun _ => ?_
      refine (Run.Composed.note _).simulates.bind_eq fun _ => ?_
      refine (Run.Composed.enter _ rfl).simulates.bind_eq fun _ => ?_
      exact Run.simulates_pure ⟨rfl, hfit, hfit', rfl, h.tally_eq⟩
  | false => exact Run.simulates_pure ⟨rfl, hfit, hfit', rfl, h.tally_eq⟩

theorem trial_simulates (hs : s.Suits) (index : Nat) (h : b.Alongside s order order' b') :
    Run.Simulates Scope.Level
      (fun r r' => r'.1 = r.1 ∧ r.2.Alongside s order order' r'.2)
      ((s.withOrder order).trial index b) ((s.withOrder order').trial index b') := by
  rw [trial, trial]
  refine (Run.Composed.begin _).simulates.bind_eq fun _ => ?_
  refine (construct_simulates hs index h).bind ?_
  rintro b₁ b₁' ⟨h₁, hkept, hworst⟩
  refine Run.simulates_running.bind ?_
  rintro _ _ ⟨rfl, rfl⟩
  refine (improve_simulates hsmall hsmall' hs h₁ hkept hworst).bind ?_
  intro b₂ b₂' h₂
  refine (compete_simulates index h₂).bind ?_
  rintro ⟨_, b₃⟩ ⟨improved, b₃'⟩ ⟨rfl, h₃⟩
  dsimp only at h₃ ⊢
  rw [h₂.arena_eq, h₃.arena_eq]
  refine (Run.Composed.count _).simulates.bind_eq fun _ => ?_
  refine (Run.Composed.note _).simulates.bind_eq fun _ => ?_
  refine (Run.Composed.finish _).simulates.bind_eq fun _ => ?_
  exact Run.simulates_pure ⟨rfl, h₃⟩

theorem trials_simulates (hs : s.Suits) (remaining index : Nat)
    (h : b.Alongside s order order' b') :
    Run.Simulates Scope.Level (Buffers.Alongside s order order')
      ((s.withOrder order).trials remaining index b)
      ((s.withOrder order').trials remaining index b') := by
  induction remaining generalizing index b b' with
  | zero =>
      rw [trials, trials]
      exact Run.simulates_pure h
  | succ remaining ih =>
      rw [trials, trials]
      refine Run.simulates_running.bind ?_
      rintro _ _ ⟨rfl, rfl⟩
      refine (trial_simulates hsmall hsmall' hs index h).bind ?_
      rintro ⟨_, b₁⟩ ⟨goOn, b₁'⟩ ⟨rfl, h₁⟩
      cases goOn with
      | true => exact ih (index + 1) h₁
      | false => exact Run.simulates_pure h₁

/-- **Runs with searches of order zero and of order one stay level.** -/
theorem grasp_simulates (hs : s.Suits) :
    Run.Simulates Scope.Level (Buffers.Alongside s order order') (s.withOrder order).grasp
      (s.withOrder order').grasp := by
  rw [grasp, grasp]
  refine (Run.Composed.begin _).simulates.bind_eq fun _ => ?_
  refine (trials_simulates hsmall hsmall' hs _ 1
    ⟨buffers_fit, buffers_fit, rfl, rfl⟩).bind fun b b' h => ?_
  refine (Run.Composed.finish _).simulates.bind_eq fun _ => ?_
  exact Run.simulates_pure h

end

/-! ### Runs -/

/-- **Whole runs with searches of order zero and of order one** end with the same answer, at the
same word of the stream, and have sent the same messages. -/
theorem compute_level (hs : s.Suits) (hnever : s.condition.NeverFires) (hsmall : order ≤ 1)
    (hsmall' : order' ≤ 1) (seed : UInt64) :
    ∃ report report' b b' scope scope', (s.withOrder order).compute seed = .ok report ∧
      (s.withOrder order').compute seed = .ok report' ∧
      report'.answer.assignment = report.answer.assignment ∧
      report'.answer.cost = report.answer.cost ∧
      report'.journal.messages = report.journal.messages ∧
      (s.withOrder order).grasp ((s.withOrder order).startScope seed) = .ok (b, scope) ∧
      (s.withOrder order').grasp ((s.withOrder order').startScope seed) = .ok (b', scope') ∧
      scope'.stream = scope.stream := by
  have hstart : ((s.withOrder order).startScope seed).Level
      ((s.withOrder order').startScope seed) := ⟨rfl, rfl, hnever, hnever, rfl⟩
  have hlevel := grasp_simulates hsmall hsmall' hs _ _ hstart
  have hzero : ((s.withOrder order).startScope seed).statistics.bestImprovements = 0 := rfl
  rcases grasp_gives (hs.withOrder order) hzero with ⟨b, scope, hrun, -⟩ | ⟨fault, -, horder, -⟩
  · rw [hrun] at hlevel
    obtain ⟨⟨b', scope'⟩, hrun', hb, hscope⟩ := hlevel.exists_of_ok
    obtain ⟨report, hcompute, hreports⟩ := compute_of_grasp (hs.withOrder order).nodeCount_pos hrun
    obtain ⟨report', hcompute', hreports'⟩ :=
      compute_of_grasp (hs.withOrder order').nodeCount_pos hrun'
    have hnoted (note note' : Note Rat) :
        Journal.messages (scope'.journal.push (.noted note')) =
          Journal.messages (scope.journal.push (.noted note)) :=
      (hscope.entered (.noted note) (.noted note') rfl).messages_eq
    refine ⟨report, report', b, b', scope, scope', hcompute, hcompute', ?_, ?_, ?_, hrun, hrun',
      hscope.stream_eq⟩
    · rw [hreports'.answer_eq, hreports.answer_eq, hb.arena_eq]
    · rw [hreports'.answer_eq, hreports.answer_eq, hb.arena_eq]
    · rw [hreports'.journal_eq, hreports.journal_eq]
      exact hnoted _ _
  · exact absurd hsmall (Nat.not_le.2 horder)

section

variable {l : EdgeList Rat} {g : Graph Rat} {c : Config}

/-- **Searches in neighborhoods extend local searches.** A run that is never stopped gives the
same assignment and cost with searches of order one as with plain local searches, sends the same
messages and leaves the stream at the same word. Whatever the maximal order is, a search that is
never stopped finds in its first round what a local search finds from the same start, and adopts
it; so unless two community ids overflow, it does not end with anything worse. -/
theorem neighborhoods_extend_local_search (hbuild : l.build = .ok g) (hpos : 0 < g.nodeCount)
    (hword : g.nodeCount < Tally.modulus) (haccepted : c.problemFor? g.nodeCount = .ok none)
    (hk : c.k < 2 ^ 32) (minBatch : Nat) (termination : Option Termination) (listeners : Nat)
    (seed : UInt64) :
    let s (order : Nat) : Solver Rat := ⟨g, { c with vnsMaxNeighborhoodOrder := order },
      .random minBatch, termination, listeners⟩
    ((s 0).condition.NeverFires → ∃ report report' b b' scope scope',
      (s 0).compute seed = .ok report ∧ (s 1).compute seed = .ok report' ∧
      report'.answer.assignment = report.answer.assignment ∧
      report'.answer.cost = report.answer.cost ∧
      report'.journal.messages = report.journal.messages ∧
      (s 0).grasp ((s 0).startScope seed) = .ok (b, scope) ∧
      (s 1).grasp ((s 1).startScope seed) = .ok (b', scope') ∧
      scope'.stream = scope.stream) ∧
    ∀ order, 0 < order → ∀ (w w' : Workspace Rat) (neighbor start : Candidate Rat)
      (scope scope' : Scope Rat), w.Fits (s order).localSearch → w'.Fits (s order).localSearch →
      Spare (s order).localSearch neighbor → start.Sound g.nodeCount c.k → start.cost = .worst →
      scope.termination.NeverFires → scope'.termination.NeverFires →
      let ls := (s order).localSearch
      let vns := (s order).neighborhoodSearch
      ∃ outcome w₁ found t p t', ls.compute w' start scope' = .ok ((outcome, w₁, found), t) ∧
        vns.round ls ⟨w, start, neighbor, 0, ⟨0, 0, false⟩⟩ scope = .ok ((true, p), t') ∧
        p.best = found ∧ p.order = 0 ∧ p.outcome = ⟨1, 1, false⟩ ∧
        ((1 < order ∧ 2 ^ 31 < c.k ∧
          ∃ sum, vns.compute ls w neighbor start scope = .error (.overflow sum)) ∨
        ∃ r t'', vns.compute ls w neighbor start scope = .ok (r, t'') ∧
          ¬ c.objective.prefers found.cost r.2.2.2.cost = true) := by
  intro s
  have hs : Suits ⟨g, c, .random minBatch, termination, listeners⟩ :=
    suits_of_build hbuild hpos hword haccepted hk minBatch termination listeners
  refine ⟨fun hnever => compute_level hs hnever (Nat.zero_le 1) (Nat.le_refl 1) seed, ?_⟩
  intro order horder w w' neighbor start scope scope' hw hw' hneighbor hstart hcost hrunning
    hrunning' ls vns
  have hmatch : NeighborhoodSearch.Matches vns ls := (hs.withOrder order).searches_match
  obtain ⟨⟨outcome, w₁, found⟩, t, hsearch, -, rounds, hfound⟩ :=
    LocalSearch.compute_unstopped hmatch.ready hw' hstart hrunning'
  obtain ⟨⟨_, p⟩, t', hround, rfl, ⟨rounds', hfirst⟩, hzero, houtcome⟩ :=
    NeighborhoodSearch.round_unstopped hmatch hw hneighbor hstart hcost hrunning horder
  refine ⟨outcome, w₁, found, t, p, t', hsearch, hround, ?_, hzero, houtcome, ?_⟩
  · exact hfound.unique hmatch.ready hfirst ⟨rfl, rfl⟩
  · rcases NeighborhoodSearch.compute_not_prefers hmatch hw hneighbor hstart hcost hrunning horder
      hfound with ⟨r, t'', hcompute, hbest⟩ | ⟨fault, hcompute, hwide, hsum, sum, rfl⟩
    · exact Or.inr ⟨r, t'', hcompute, hbest⟩
    · exact Or.inl ⟨hwide, hsum, sum, hcompute⟩

/-- Two trials on the undirected triangle, and one search of order two from one community. -/
theorem first_order_triangle :
    let s (order : Nat) : Solver Rat := ⟨(EdgeList.triangle true).toGraph,
      { Config.default with iterations := 2, vnsMaxNeighborhoodOrder := order }, .random 1,
      some (.predicate (fun _ => true) 0), 0⟩
    let start : Candidate Rat := ⟨#[0, 0, 0], #[3, 0], .worst⟩
    (∃ report report', (s 0).compute 7 = .ok report ∧ (s 1).compute 7 = .ok report' ∧
      report'.answer.cost = report.answer.cost ∧
      report'.journal.messages = report.journal.messages) ∧
    ∃ outcome w found t r t',
      (s 2).localSearch.compute (s 2).localSearch.workspace start (.start 4 7 .never) =
        .ok ((outcome, w, found), t) ∧
      (s 2).neighborhoodSearch.compute (s 2).localSearch (s 2).localSearch.workspace
        (.blank 3 2) start (.start 4 7 .never) = .ok (r, t') ∧
      ¬ Objective.maximize.prefers found.cost r.2.2.2.cost = true := by
  intro s start
  have hstart : start.Sound (EdgeList.triangle true).toGraph.nodeCount 2 := ⟨by decide, by decide⟩
  have hw : (s 2).localSearch.workspace.Fits (s 2).localSearch :=
    ⟨Array.size_replicate, Array.size_replicate⟩
  have hrunning : (Scope.start 4 7 .never : Scope Rat).termination.NeverFires := .of_poll_eq rfl
  obtain ⟨hruns, hsearches⟩ := neighborhoods_extend_local_search (EdgeList.build_triangle true)
    (c := (s 0).config) (by decide) (by decide) (by decide) (by decide) 1
    (some (.predicate (fun _ => true) 0)) 0 7
  obtain ⟨report, report', -, -, -, -, hcompute, hcompute', -, hcost, hmessages, -⟩ :=
    hruns (.predicate fun _ => rfl)
  obtain ⟨outcome, w, found, t, -, -, hsearch, -, -, -, -, hend⟩ := hsearches 2 (by decide) _ _
    (.blank 3 2) start _ _ hw hw ⟨Assignment.size_zero _, Tally.size_zero _⟩ hstart rfl hrunning
    hrunning
  refine ⟨⟨report, report', hcompute, hcompute', hcost, hmessages⟩, ?_⟩
  rcases hend with ⟨-, hwide, -⟩ | ⟨r, t', hcompute, hbest⟩
  · exact absurd hwide (by decide)
  · exact ⟨outcome, w, found, t, r, t', hsearch, hcompute, hbest⟩

end

end Solver

end KCut
