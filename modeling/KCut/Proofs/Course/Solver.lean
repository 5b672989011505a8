import KCut.Proofs.Course.Search
import KCut.Proofs.Graph.Incidence
import KCut.Proofs.Solver.Report

/-!
# KCut.Proofs.Course.Solver

The course of a whole run, and what listeners hear of it.

A trial shows its construction, a poll and one search; it goes no further than a lone cost
if that poll stops it, and then no trial follows. So the events of a run are a word of the
grammar of tasks (`Course.runEvents`), whatever the polls answer, and what the statistics
have counted can be counted in the events as well.
-/

namespace KCut

open Course (around chain chainEnd)

variable {α : Type}

/-! ### Constructions -/

namespace RandomPlacement

/-- A construction shows itself and nothing inside. -/
theorem build_went (minBatch : Nat) (g : Graph α) (minSizes : Array Nat) (a : Assignment)
    (t : Tally) (scope : Scope α) :
    (build minBatch g minSizes a t).Ensures scope fun _ scope' =>
      scope.Shows (around .construction []) scope' := by
  rw [build, buildIn]
  simp only [Run.ensures_bind, Run.ensures_begin, Run.ensures_concurrency, Run.ensures_check,
    Run.ensures_note, Run.ensures_finish, Run.ensures_pure]
  refine (Reservation.takeMinimums_silent.went _).mono ?_
  intro r scope₁ hreserved free _
  refine (splitStreams_silent.went _).mono ?_
  intro tasks scope₂ hsplit placed _
  have hbegun := (Scope.Went.refl scope).task (.began .construction)
  have hbuilt := (hbegun.trans hreserved).trans hsplit
  exact ((hbuilt.noted _).task (.ended .construction)).congr (by simp [around]) (by simp; rfl)

end RandomPlacement

namespace Solver

/-! ### The phases of a trial -/

theorem construct_went {s : Solver α} {minBatch : Nat} (hrandom : s.construction = .random minBatch)
    (index : Nat) (b : Buffers α) (scope : Scope α) :
    (s.construct index b).Ensures scope fun _ scope' =>
      scope.Shows (around .construction []) scope' := by
  rw [construct, hrandom]
  refine Run.ensures_bind.2 ((RandomPlacement.build_went _ _ _ _ _ scope).mono ?_)
  exact fun _ _ hbuilt => Run.ensures_pure.2 hbuilt

variable [Weight α]

theorem score_went (s : Solver α) (b : Buffers α) (scope : Scope α) :
    (s.score b).Ensures scope fun _ scope' =>
      scope'.stream = scope.stream ∧ scope.Went (around .computeCost []) 0 scope' := by
  rw [score]
  refine Run.ensures_bind.2 ((LocalSearch.evaluateIn_went _ _ _ scope).mono ?_)
  exact fun _ _ hscored => Run.ensures_pure.2 hscored

/-- A competition is silent and draws nothing. -/
theorem compete_went (s : Solver α) (index : Nat) (b : Buffers α) (scope : Scope α) :
    (s.compete index b).Ensures scope fun _ scope' =>
      scope'.stream = scope.stream ∧ scope.Went [] 0 scope' := by
  rw [compete]
  simp only [Run.ensures_bind, Run.ensures_enter]
  have hscored := (Scope.Went.refl scope).entered
    (.scored ⟨index, b.arena.current.cost, b.arena.current.assignment⟩) rfl
  split
  · simp only [Run.ensures_bind, Run.ensures_count, Run.ensures_note, Run.ensures_enter,
      Run.ensures_pure, true_and]
    have hcounted := hscored.counted scope.statistics.recordBest 0 (add_zero _).symm
    exact (hcounted.noted _).entered _ rfl
  · exact Run.ensures_pure.2 ⟨rfl, hscored⟩

theorem improve_went (s : Solver α) (b : Buffers α) (scope : Scope α) :
    (s.improve b).Ensures scope fun _ scope' => ∃ search : Course.Search,
      search.isScore = false ∧ search.Fits s.config.vnsMaxNeighborhoodOrder ∧
        search.drawn scope.stream.position = scope'.stream.position ∧
        scope.Shows (search.beats scope.stream.position) scope' := by
  rw [improve]
  refine Run.ensures_bind.2 ((NeighborhoodSearch.compute_went _ _ _ _ _ scope).mono ?_)
  exact fun _ _ hsearched => Run.ensures_pure.2 hsearched

/-! ### Trials -/

/-- **The course of a trial.** The run goes on after it iff its candidate has been searched. -/
theorem trial_went {s : Solver α} {minBatch : Nat} (hrandom : s.construction = .random minBatch)
    (index : Nat) (b : Buffers α) (scope : Scope α) :
    (s.trial index b).Ensures scope fun r scope' => ∃ t : Course.Trial,
      r.1 = !t.search.isScore ∧ t.search.Fits s.config.vnsMaxNeighborhoodOrder ∧
        t.drawn = scope'.stream.position ∧ scope.Went (t.beats index) (t.work index) scope' := by
  rw [trial]
  refine Run.ensures_bind.2 (Run.ensures_begin.2 (Run.ensures_bind.2 ?_))
  refine (construct_went hrandom index b _).mono ?_
  intro b₁ scope₁ hconstructed
  refine Run.ensures_bind.2 (Run.ensures_poll.2 ?_)
  have hpolled := (((Scope.Went.refl scope).task (.began (.trial index))).trans hconstructed).polled
  cases hstop : scope₁.termination.poll.1 with
  | true =>
      rw [hstop] at hpolled
      refine Run.ensures_bind.2 ((score_went s b₁ _).mono ?_)
      intro b₂ scope₂ hscored
      obtain ⟨hstream₂, hwent₂⟩ := hscored
      refine Run.ensures_bind.2 ((compete_went s index b₂ scope₂).mono ?_)
      intro r scope₃ hcompeted
      obtain ⟨hstream₃, hwent₃⟩ := hcompeted
      simp only [Run.ensures_bind, Run.ensures_finish, Run.ensures_pure]
      refine ⟨⟨scope₁.stream.position, .score⟩, rfl, trivial, ?_, ?_⟩
      · rw [hstream₃, hstream₂]
        rfl
      · refine (((hpolled.trans hwent₂).trans hwent₃).task (.ended (.trial index))).congr ?_ ?_
        · simp [Course.Trial.beats, Course.Search.beats, Course.Search.isScore, around]
        · rw [Course.Trial.work_eq]
          rfl
  | false =>
      rw [hstop] at hpolled
      refine Run.ensures_bind.2 ((improve_went s b₁ _).mono ?_)
      intro b₂ scope₂ hsearched
      obtain ⟨search, hsearch, hfits, hdrawn, hshows⟩ := hsearched
      refine Run.ensures_bind.2 ((compete_went s index b₂ scope₂).mono ?_)
      intro r scope₃ hcompeted
      obtain ⟨hstream₃, hwent₃⟩ := hcompeted
      simp only [Run.ensures_bind, Run.ensures_count, Run.ensures_note, Run.ensures_finish,
        Run.ensures_pure]
      refine ⟨⟨scope₁.stream.position, search⟩, by simp [hsearch], hfits, ?_, ?_⟩
      · rw [hstream₃]
        exact hdrawn
      · have hend := ((hpolled.trans hshows).trans hwent₃).counted
          scope₃.statistics.recordTrial ⟨1, 0, 0, 0⟩ rfl
        refine ((hend.noted _).task (.ended (.trial index))).congr ?_ ?_
        · simp [Course.Trial.beats, hsearch, around]
        · have hbuilt : Work.heard (Beat.events (around .construction [])) = 0 := rfl
          rw [Course.Trial.work_eq, Course.Search.events_beats, hsearch, hbuilt, zero_add, zero_add,
            add_zero]
          rfl

/-- What is known of the trials of a run that are left when a trial begins. -/
structure Trials (s : Solver α) (remaining : Nat) (trials : List Course.Trial) : Prop where
  length_le : trials.length ≤ remaining
  fits : ∀ t ∈ trials, t.search.Fits s.config.vnsMaxNeighborhoodOrder
  searched : ∀ t ∈ trials.dropLast, t.search.isScore = false

omit [Weight α] in
theorem Trials.cons {s : Solver α} {remaining : Nat} {t : Course.Trial} {rest : List Course.Trial}
    (hrest : Trials s remaining rest) (hfits : t.search.Fits s.config.vnsMaxNeighborhoodOrder)
    (hsearched : t.search.isScore = false) : Trials s (remaining + 1) (t :: rest) where
  length_le := Nat.succ_le_succ hrest.length_le
  fits := by simpa using ⟨hfits, hrest.fits⟩
  searched := by
    cases rest with
    | nil => simp
    | cons t' rest => simpa using ⟨hsearched, hrest.searched⟩

theorem trials_went {s : Solver α} {minBatch : Nat} (hrandom : s.construction = .random minBatch)
    (remaining index : Nat) (b : Buffers α) (scope : Scope α) :
    (s.trials remaining index b).Ensures scope fun _ scope' =>
      ∃ (trials : List Course.Trial) (stopped : Bool), Trials s remaining trials ∧
        scope.Chained stopped (Course.Trial.parts index trials) (Course.Trial.works index trials)
          scope' := by
  induction remaining generalizing index b scope with
  | zero =>
      rw [trials]
      exact Run.ensures_pure.2 ⟨[], false, ⟨Nat.le_refl 0, by simp, by simp⟩, .refl scope⟩
  | succ remaining ih =>
      rw [trials]
      refine Run.ensures_bind.2 (Run.ensures_poll.2 ?_)
      cases hstop : scope.termination.poll.1 with
      | true =>
          exact Run.ensures_pure.2 ⟨[], true, ⟨Nat.zero_le _, by simp, by simp⟩, .stop hstop⟩
      | false =>
          refine Run.ensures_bind.2 ((trial_went hrandom index b _).mono ?_)
          intro r scope₁ htrial
          obtain ⟨t, hgoOn, hfits, hdrawn, hwent⟩ := htrial
          dsimp only
          split
          · next hrunning =>
            refine (ih (index + 1) r.2 scope₁).mono ?_
            intro b' scope₂ hrest
            obtain ⟨rest, stopped, hrest, hchained⟩ := hrest
            rw [hrunning, eq_comm, Bool.not_eq_true'] at hgoOn
            exact ⟨t :: rest, stopped, hrest.cons hfits hgoOn,
              .cons hstop hwent hdrawn hchained⟩
          · -- A trial that was stopped behind its construction is the last one.
            refine Run.ensures_pure.2 ⟨[t], false, ⟨by simp, by simpa using hfits, by simp⟩, ?_⟩
            exact .last hstop hwent hdrawn

/-! ### Runs -/

/-- What the report of a run shows of its trials, and the scope that the last of them ended
in. -/
structure Ran (s : Solver α) (report : Report α) (stopped : Bool) (trials : List Course.Trial)
    (scope : Scope α) : Prop where
  known : Trials s s.config.iterations trials
  course_eq : report.journal.course = Course.runBeats stopped trials
  position_eq : chainEnd 0 (Course.Trial.parts 1 trials) = scope.stream.position
  asked : s.condition.Answers report.journal.answers scope.termination
  work_eq : report.answer.statistics.work = Course.Trial.works 1 trials

/-- **The course of a run** with random placement, whatever ends it. -/
theorem compute_ran {s : Solver α} {minBatch : Nat} (hrandom : s.construction = .random minBatch)
    (hpos : 0 < s.graph.nodeCount) {seed : UInt64} {report : Report α}
    (h : s.compute seed = .ok report) : ∃ b scope stopped trials,
      s.grasp (s.startScope seed) = .ok (b, scope) ∧ Ran s report stopped trials scope := by
  obtain ⟨b, scope, hrun, hreports⟩ := grasp_of_compute hpos h
  have hgrasp : s.grasp.Ensures (s.startScope seed) fun _ scope => ∃ trials stopped,
      Trials s s.config.iterations trials ∧
      (s.startScope seed).Went (Course.runBeats stopped trials) (Course.Trial.works 1 trials)
        scope ∧
      chainEnd 0 (Course.Trial.parts 1 trials) = scope.stream.position := by
    rw [grasp]
    refine Run.ensures_bind.2 (Run.ensures_begin.2 (Run.ensures_bind.2 ?_))
    refine (trials_went hrandom _ _ _ _).mono ?_
    intro b scope htrials
    obtain ⟨trials, stopped, htrials, hchained⟩ := htrials
    simp only [Run.ensures_bind, Run.ensures_finish, Run.ensures_pure]
    refine ⟨trials, stopped, htrials, ?_, hchained.end_eq⟩
    have hstart := (Scope.Went.refl (s.startScope seed)).task (.began .grasp)
    have hposition : (s.startScope seed).stream.position = 0 := rfl
    refine ((hstart.trans hchained.went).task (.ended .grasp)).congr ?_ (zero_add _)
    simp [Course.runBeats, around, hposition]
  obtain ⟨trials, stopped, htrials, hwent, hend⟩ := hgrasp b scope hrun
  have hcourse : Journal.course (s.startScope seed).journal = [] := rfl
  have hcourse' : scope.journal.course = Course.runBeats stopped trials := by
    rw [hwent.course_eq, hcourse, List.nil_append]
  refine ⟨b, scope, stopped, trials, hrun, htrials, ?_, hend, ?_, ?_⟩
  · rw [hreports.journal_eq, Journal.course_push, hcourse']
    exact List.append_nil _
  · have hasked : s.condition.Answers (Beat.answers (Course.runBeats stopped trials))
        scope.termination := hwent.asked
    rw [← Journal.answers_course, hreports.journal_eq, Journal.course_push, hcourse']
    simpa [Entry.beat?] using hasked
  · rw [hreports.answer_eq]
    exact hwent.work_eq.trans (zero_add _)

/-- **What is heard of a run is a word of the grammar of tasks, and agrees with its
statistics.** -/
theorem events_follow_grammar {s : Solver α} {minBatch : Nat}
    (hrandom : s.construction = .random minBatch) (hpos : 0 < s.graph.nodeCount) {seed : UInt64}
    {report : Report α} (h : s.compute seed = .ok report) :
    ∃ trials : List Course.Trial,
      report.journal.events = Course.runEvents trials ∧ trials.length ≤ s.config.iterations ∧
      (∀ t ∈ trials, t.search.Fits s.config.vnsMaxNeighborhoodOrder) ∧
      (∀ t ∈ trials.dropLast, t.search.isScore = false) ∧
      Nested report.journal.events ∧
      let events := report.journal.events
      let statistics := report.answer.statistics
      statistics.trialsCompleted = trials.countP (fun t => !t.search.isScore) ∧
      statistics.localSearchCalls = events.count (.began .localSearch) ∧
      statistics.localSearchRounds = events.count (.began .computeAffinities) ∧
      statistics.vnsRounds = events.countP Work.beginsVnsRound ∧
      report.journal.counts.localSearches = statistics.localSearchCalls ∧
      report.journal.counts.convergenceRounds = statistics.localSearchRounds ∧
      report.journal.counts.vnsRounds = statistics.vnsRounds := by
  obtain ⟨b, scope, stopped, trials, -, hran⟩ := compute_ran hrandom hpos h
  have hevents : report.journal.events = Course.runEvents trials := by
    rw [← Journal.events_course, hran.course_eq, Course.events_runBeats]
  have hwork : report.answer.statistics.work = Work.heard report.journal.events +
      ⟨trials.countP (fun t => !t.search.isScore), 0, 0, 0⟩ := by
    rw [hran.work_eq, hevents, Course.works_eq]
  have hcounts := hwork
  rw [Work.heard_eq_counts] at hcounts
  refine ⟨trials, hevents, hran.known.length_le, hran.known.fits, hran.known.searched,
    hevents ▸ Nested.runEvents trials, ?_, ?_, ?_, ?_, ?_, ?_, ?_⟩
  · exact (congrArg Work.trials hwork).trans (Nat.zero_add _)
  · exact congrArg Work.localSearches hwork
  · exact congrArg Work.rounds hwork
  · exact congrArg Work.vnsRounds hwork
  · exact (congrArg Work.localSearches hcounts).symm
  · exact (congrArg Work.rounds hcounts).symm
  · exact (congrArg Work.vnsRounds hcounts).symm

/-- The undirected triangle in two trials of a neighborhood search, of which the second one
is stopped behind its construction. -/
theorem events_triangle :
    let s : Solver Rat := ⟨(EdgeList.triangle true).toGraph,
      { Config.default with
        iterations := 2
        vnsMaxNeighborhoodOrder := 1
        minCommunitySizes := [2, 1] },
      .random 1, some (.afterPolls 7), 0⟩
    ∃ report trials, s.compute 7 = .ok report ∧
      report.journal.events = Course.runEvents trials ∧ Nested report.journal.events ∧
      trials.countP (fun t => !t.search.isScore) = 1 ∧
      report.answer.statistics.localSearchCalls =
        report.journal.events.count (.began .localSearch) := by
  intro s
  have hends : (s.compute 7).toOption.map (·.answer.statistics.trialsCompleted) = some 1 := by
    decide +kernel
  cases hcompute : s.compute 7 with
  | error fault =>
      rw [hcompute] at hends
      exact nomatch hends
  | ok report =>
      rw [hcompute] at hends
      obtain ⟨trials, hevents, -, -, -, hnested, hcompleted, hcalls, -⟩ :=
        events_follow_grammar (show s.construction = .random 1 from rfl) (by decide) hcompute
      exact ⟨report, trials, rfl, hevents, hnested,
        hcompleted.symm.trans (Option.some.inj hends), hcalls⟩

end Solver

end KCut
