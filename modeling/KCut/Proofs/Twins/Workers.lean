import KCut.Proofs.Discreet
import KCut.Proofs.Safety.Solver
import KCut.Proofs.Twins.Solver

/-!
# KCut.Proofs.Twins.Workers

Runs that differ in the number of their workers.

A run looks at this number in two places only: its searches are set up with blocks by degree,
and every random placement asks for it to cut its free nodes into blocks. As long as all nodes
and all relationships fit into one batch, there is a single block in both places, whatever the
number (`Partition.byDegree_eq_whole`, `Partition.byCount_eq_whole`). All other steps cannot
tell two such runs apart (`Run.Plain.steady`), so these stay in step from the first entry
behind their settings to the last (`compute_withWorkers`). This asks nothing of the weights:
a sum of costs block by block is the same sum on both sides.
-/

namespace KCut

variable {α β γ : Type} {base base' : Base α}

/-! ### Steady steps -/

namespace Run

/-- The step goes the same way in runs that have started from `base` and from `base'`. -/
def Steady (base base' : Base α) (m : Run α β) : Prop :=
  Simulates (Scope.Image id base base') Eq m m

theorem Steady.bind {m : Run α γ} {f : γ → Run α β} (hm : m.Steady base base')
    (hf : ∀ c, (f c).Steady base base') : (m >>= f).Steady base base' :=
  Simulates.bind_eq hm hf

theorem steady_pure (b : β) : Steady base base' (pure b) :=
  simulates_pure rfl

theorem steady_enter (entry : Entry α) : Steady base base' (enter entry) := by
  have h : Simulates (Scope.Image id base base') Eq (enter entry) (enter (entry.mapCost id)) :=
    simulates_enter entry
  rwa [Entry.mapCost_id] at h

theorem steady_count (change : Statistics → Statistics) : Steady base base' (count change) :=
  simulates_count change

/-- **Plain steps are steady.** -/
theorem Plain.steady {m : Run α β} (h : m.Plain) : m.Steady base base' := by
  induction h with
  | pure b => exact steady_pure b
  | bind hm hf ihm ihf => exact ihm.bind ihf
  | check x => exact simulates_check (Alike.refl x)
  | enter entry hentry => exact steady_enter entry
  | count change hsame => exact steady_count change
  | poll => exact simulates_poll
  | draw low high => exact (simulates_draw low high).mono fun x x' hx => hx.2.symm
  | split => exact simulates_split

end Run

open Run

/-! ### Constructions -/

/-- Reserving moves the nodes about, and adds none. -/
theorem Reservation.takeMany_size {community count : Nat} {r : Reservation} (scope : Scope α) :
    Ensures (takeMany community count r) scope fun r' _ => r'.nodes.size = r.nodes.size := by
  induction count generalizing r scope with
  | zero => exact ensures_pure.2 rfl
  | succ count ih =>
      rw [takeMany, ensures_bind]
      refine ensures_draw fun pick stream => ?_
      rw [ensures_bind, ensures_check]
      intro r₁ htake
      refine (ih _).mono fun r' _ hsize => hsize.trans ?_
      rw [take] at htake
      obtain ⟨nodes, hswap, htake⟩ := exists_of_bind_eq_ok htake
      obtain ⟨node, -, htake⟩ := exists_of_bind_eq_ok htake
      obtain ⟨a, -, htake⟩ := exists_of_bind_eq_ok htake
      cases htake
      rw [Buffer.eq_of_swap_eq_ok hswap, Array.size_swapIfInBounds]

theorem Reservation.takeMinimums_size {community : Nat} {mins : List Nat}
    {state : Reservation × Tally} (scope : Scope α) :
    Ensures (takeMinimums community mins state) scope fun state' _ =>
      state'.1.nodes.size = state.1.nodes.size := by
  induction mins generalizing community state scope with
  | nil => exact ensures_pure.2 rfl
  | cons least rest ih =>
      rw [takeMinimums, ensures_bind, ensures_check]
      intro free _
      rw [ensures_bind]
      refine (takeMany_size scope).mono fun r scope₁ hsize => ?_
      rw [ensures_bind, ensures_check]
      exact fun t _ => (ih scope₁).mono fun _ _ hrest => hrest.trans hsize

/-- **Placement in one block**: a batch that no graph of this size can fill leaves one block,
or none if all nodes are reserved. -/
theorem RandomPlacement.build_steady {g : Graph α} {minBatch : Nat} (h : g.nodeCount ≤ minBatch)
    (minSizes : Array Nat) (a : Assignment) (t : Tally) :
    (build minBatch g minSizes a t).Steady base base' := by
  rw [build, buildIn]
  refine (Plain.begin _).steady.bind fun _ => ?_
  have hreserve : Steady base base' (Reservation.takeMinimums 0 (minSizes.toList.take t.size)
      (⟨Array.range g.nodeCount, 0, a⟩, t.reset)) := Reservation.takeMinimums_silent.plain.steady
  refine (hreserve.and_ensures fun scope => Reservation.takeMinimums_size scope).bind ?_
  rintro ⟨r, t₁⟩ _ ⟨hsize, rfl⟩
  refine ((Plain.check _).steady.and_ensures fun scope =>
    ensures_check.2 fun _ => Buffer.eq_of_slice_eq_ok).bind ?_
  rintro _ _ ⟨rfl, rfl⟩
  have hfree : (r.nodes.extract r.reserved r.nodes.size).size ≤ minBatch := by
    rw [Array.size_extract, hsize, Array.size_range]
    omega
  refine simulates_concurrency.bind ?_
  intro workers workers' _
  rw [Partition.byCount_eq_whole hfree, Partition.byCount_eq_whole hfree]
  refine Plain.steady ?_
  refine splitStreams_silent.plain.bind fun _ => ?_
  refine (Plain.check _).bind fun _ => ?_
  refine (Plain.enter _ (by trivial)).bind fun _ => ?_
  refine (Plain.finish _).bind fun _ => ?_
  exact .pure _

/-! ### Trials -/

namespace Solver

open NeighborhoodSearch (Unfinished)

/-- The solver with another number of workers. -/
def withWorkers (s : Solver α) (workers : Nat) : Solver α :=
  { s with config := { s.config with concurrency := workers } }

variable [Weight α] {s : Solver α}

/-- **Searches in one block**: the search of a solver does not depend on the number of its
workers if no block by degree can be full. -/
theorem localSearch_withWorkers (h : s.graph.degrees.sum < s.config.minBatchSize)
    (workers : Nat) : (s.withWorkers workers).localSearch = s.localSearch := by
  have hblock := Partition.byDegree_eq_whole h
  rw [localSearch, localSearch, LocalSearch.new, LocalSearch.new]
  congr 1
  exact (hblock workers).trans (hblock s.config.concurrency).symm

/-- So its trials are the same steps, but for what placement asks on the way. -/
theorem trial_withWorkers (h : s.graph.degrees.sum < s.config.minBatchSize) (workers index : Nat)
    (b : Buffers α) : (s.withWorkers workers).trial index b = s.trial index b := by
  have hsearch := localSearch_withWorkers h workers
  have hscore (b : Buffers α) : (s.withWorkers workers).score b = s.score b := by
    rw [score, score, hsearch]
  have himprove (b : Buffers α) : (s.withWorkers workers).improve b = s.improve b := by
    rw [improve, improve, hsearch]
    rfl
  rw [trial, trial]
  simp only [hscore, himprove]
  rfl

theorem trials_withWorkers (h : s.graph.degrees.sum < s.config.minBatchSize)
    (workers remaining index : Nat) (b : Buffers α) :
    (s.withWorkers workers).trials remaining index b = s.trials remaining index b := by
  induction remaining generalizing index b with
  | zero => rfl
  | succ remaining ih =>
      rw [trials, trials]
      simp only [trial_withWorkers h, ih]

theorem grasp_withWorkers (h : s.graph.degrees.sum < s.config.minBatchSize) (workers : Nat) :
    (s.withWorkers workers).grasp = s.grasp := by
  have hbuffers : (s.withWorkers workers).buffers = s.buffers := by
    rw [buffers, buffers, localSearch_withWorkers h]
    rfl
  rw [grasp, grasp, hbuffers]
  simp only [trials_withWorkers h]
  rfl

theorem compete_steady (index : Nat) (b : Buffers α) : (s.compete index b).Steady base base' := by
  rw [compete]
  refine (steady_enter _).bind fun _ => ?_
  split
  split
  · refine (steady_count _).bind fun _ => ?_
    refine (steady_enter _).bind fun _ => ?_
    refine (steady_enter _).bind fun _ => ?_
    exact steady_pure _
  · exact steady_pure _

section

variable {minBatch : Nat} (hrandom : s.construction = .random minBatch)
  (hnodes : s.graph.nodeCount ≤ minBatch)

include hrandom hnodes

theorem trial_steady (index : Nat) (b : Buffers α) : (s.trial index b).Steady base base' := by
  rw [trial, construct, hrandom]
  refine (Plain.begin _).steady.bind fun _ => ?_
  refine Steady.bind ?_ fun b => ?_
  · refine (RandomPlacement.build_steady (hnodes.trans (Nat.le_max_left _ _)) _ _ _).bind ?_
    exact fun _ => steady_pure _
  refine Plain.poll.steady.bind fun stop => ?_
  split
  · refine Steady.bind ?_ fun b => ?_
    · rw [score]
      exact s.localSearch.evaluateIn_plain.steady.bind fun _ => steady_pure _
    refine (compete_steady index b).bind fun _ => ?_
    exact (Plain.finish _).steady.bind fun _ => steady_pure _
  · refine Steady.bind ?_ fun b => ?_
    · rw [improve]
      exact (s.neighborhoodSearch.compute_plain _).steady.bind fun _ => steady_pure _
    refine (compete_steady index b).bind fun _ => ?_
    refine (steady_count _).bind fun _ => ?_
    refine (steady_enter _).bind fun _ => ?_
    exact (Plain.finish _).steady.bind fun _ => steady_pure _

theorem trials_steady (remaining index : Nat) (b : Buffers α) :
    (s.trials remaining index b).Steady base base' := by
  induction remaining generalizing index b with
  | zero => exact steady_pure b
  | succ remaining ih =>
      rw [trials]
      refine Plain.poll.steady.bind fun stop => ?_
      split
      · exact steady_pure b
      refine (trial_steady hrandom hnodes index b).bind ?_
      rintro ⟨goOn, b⟩
      cases goOn with
      | true => exact ih _ b
      | false => exact steady_pure b

theorem grasp_steady : s.grasp.Steady base base' := by
  rw [grasp]
  refine (Plain.begin _).steady.bind fun _ => ?_
  refine (trials_steady hrandom hnodes _ _ _).bind fun b => ?_
  exact (Plain.finish _).steady.bind fun _ => steady_pure b

/-! ### Runs -/

/-- **The number of workers cannot be seen** behind the settings that a run announces. -/
theorem compute_withWorkers (hdegrees : s.graph.degrees.sum < s.config.minBatchSize)
    (workers : Nat) (seed : UInt64) :
    Alike (ReportImage id (.noted (.solveStart (s.settings (s.seedOf seed))))
        (.noted (.solveStart ((s.withWorkers workers).settings (s.seedOf seed)))))
      (s.compute seed) ((s.withWorkers workers).compute seed) := by
  rw [compute, compute]
  dsimp only
  have hcount : (s.withWorkers workers).graph.nodeCount = s.graph.nodeCount := rfl
  have hseed : (s.withWorkers workers).config.randomSeed = s.config.randomSeed := rfl
  rw [hcount, hseed, ← seedOf]
  split
  · refine .ok ⟨(Answer.mapCost_id _).symm, rfl, #[.noted .solveEndEmpty], rfl, ?_⟩
    rw [Journal.mapCosts_id]
    rfl
  · rw [runIn, runIn, grasp_withWorkers hdegrees]
    refine (grasp_steady hrandom hnodes _ _
      (scope_image id s (s.withWorkers workers) rfl (s.seedOf seed) _ _)).bind ?_
    rintro ⟨b, scope⟩ ⟨_, scope'⟩ ⟨rfl, hscope⟩
    dsimp only at hscope ⊢
    have hcallers : (s.withWorkers workers).callersPart scope'.termination =
        s.callersPart scope.termination := by
      rw [hscope.termination_eq]
      rfl
    rw [hscope.statistics_eq]
    refine .ok ⟨(Answer.mapCost_id _).symm, hcallers, ?_⟩
    have hlast := hscope.journal_push (.noted (.solveEnd b.arena.best.cost
      scope.statistics.trialsCompleted scope.statistics.bestImprovements))
    rwa [Entry.mapCost_id] at hlast

end

omit [Weight α] in
/-- Reports of two such runs say the same to the caller, and differ in their settings only. -/
theorem ReportImage.same {settings settings' : RunSettings} {r r' : Report α}
    (h : ReportImage id (.noted (.solveStart settings)) (.noted (.solveStart settings')) r r') :
    r'.answer = r.answer ∧ r'.journal.messages = r.journal.messages ∧
      r'.journal.toList.tail = r.journal.toList.tail := by
  refine ⟨?_, ?_, ?_⟩
  · rw [h.answer_eq, Answer.mapCost_id]
  · rw [h.messages_eq, funext ScoredTrial.mapCost_id, List.map_id']
  · obtain ⟨j, hj, hj'⟩ := h.journal_eq
    rw [hj, hj', Journal.mapCosts_id, Array.toList_append, Array.toList_append]
    rfl

/-- **Below the batch size, the number of workers changes nothing.** If neither the nodes of a
graph nor its relationships can fill a batch, then with any two numbers of workers a run ends
with the same assignment, the same cost and the same counters and has sent the same messages;
its journal is the same but for the first entry, which shows the settings. Where it does not
end with a report, the two ends are the same fault, which is one of those that no
configuration rules out. -/
theorem workers_below_batch_size_change_nothing [Weight.Ordered α] {l : EdgeList α}
    {g : Graph α} {c : Config} (hbuild : l.build = .ok g) (hword : g.nodeCount < Tally.modulus)
    (haccepted : c.problemFor? g.nodeCount = .ok none) (hk : c.k < 2 ^ 32) (minBatch : Nat)
    (hnodes : g.nodeCount ≤ minBatch) (hrelationships : g.relationshipCount < c.minBatchSize)
    (termination : Option Termination) (listeners : Nat) (seed : UInt64)
    (workers workers' : Nat) :
    let s : Solver α := ⟨g, c, .random minBatch, termination, listeners⟩
    (∃ r r', (s.withWorkers workers).compute seed = .ok r ∧
      (s.withWorkers workers').compute seed = .ok r' ∧ r'.answer = r.answer ∧
      r'.journal.messages = r.journal.messages ∧
      r'.journal.toList.tail = r.journal.toList.tail) ∨
    ∃ fault, (s.withWorkers workers).compute seed = .error fault ∧
      (s.withWorkers workers').compute seed = .error fault ∧
      Unfinished c.vnsMaxNeighborhoodOrder c.k fault := by
  intro s
  have hdegrees : s.graph.degrees.sum < s.config.minBatchSize := by
    rw [EdgeList.sum_degrees_of_build hbuild]
    exact hrelationships
  have hend : (∃ report, s.compute seed = .ok report) ∨ ∃ fault, s.compute seed = .error fault ∧
      Unfinished c.vnsMaxNeighborhoodOrder c.k fault := by
    rcases Nat.eq_zero_or_pos g.nodeCount with hzero | hpos
    · obtain ⟨report, hreport, -⟩ := compute_of_no_nodes (s := s) hzero seed
      exact Or.inl ⟨report, hreport⟩
    · exact compute_safe (suits_of_build hbuild hpos hword haccepted hk _ _ _) seed
  -- Both runs are compared with the one that has the workers of the configuration.
  have halike := compute_withWorkers (s := s) rfl hnodes hdegrees workers seed
  have halike' := compute_withWorkers (s := s) rfl hnodes hdegrees workers' seed
  rcases hend with ⟨report, hreport⟩ | ⟨fault, hfault, hunfinished⟩
  · rw [hreport] at halike halike'
    obtain ⟨r, hr, himage⟩ := halike.exists_of_ok
    obtain ⟨r', hr', himage'⟩ := halike'.exists_of_ok
    obtain ⟨hanswer, hmessages, htail⟩ := himage.same
    obtain ⟨hanswer', hmessages', htail'⟩ := himage'.same
    exact Or.inl ⟨r, r', hr, hr', hanswer'.trans hanswer.symm, hmessages'.trans hmessages.symm,
      htail'.trans htail.symm⟩
  · rw [hfault] at halike halike'
    exact Or.inr ⟨fault, halike.eq_error, halike'.eq_error, hunfinished⟩

/-- The undirected triangle, whose ten stored relationships are far from a batch, with one
worker and with eight. -/
theorem workers_triangle :
    let s : Solver Rat := .new (EdgeList.triangle true).toGraph
      { Config.default with iterations := 3, vnsMaxNeighborhoodOrder := 2 }
    ∃ r r', (s.withWorkers 1).compute 7 = .ok r ∧ (s.withWorkers 8).compute 7 = .ok r' ∧
      r'.answer = r.answer ∧ r'.journal.messages = r.journal.messages := by
  intro s
  have hs : (s.withWorkers 1).Suits := suits_of_build (EdgeList.build_triangle true) (by decide)
    (by decide) (by decide) (by decide) _ none 0
  rcases workers_below_batch_size_change_nothing (EdgeList.build_triangle true) (c := s.config)
    (by decide) (by decide) (by decide) s.config.minBatchSize (by decide) (by decide) none 0 7 1 8
    with ⟨r, r', hr, hr', hanswer, hmessages, -⟩ | ⟨fault, hfault, -, -⟩
  · exact ⟨r, r', hr, hr', hanswer, hmessages⟩
  · -- With exact weights, only very large ids of communities could stop the run.
    rcases compute_concluded hs 7 with ⟨-, -, -, hwide, -⟩ | ⟨report, -, -, hreport, -⟩
    · exact absurd hwide (by decide)
    · exact nomatch hreport.symm.trans hfault

end Solver

end KCut
