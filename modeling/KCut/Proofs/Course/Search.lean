import KCut.Proofs.Course.Trace
import KCut.Proofs.Discreet
import KCut.Proofs.Ensures

/-!
# KCut.Proofs.Course.Search

The course of the parts of a trial.

`Scope.Went` says which beats a part of a run has added to the journal, and which of its
work the statistics have counted. Each function of a trial is taken apart once, from the
innermost loop outwards, and its course is one of the shapes of `Course`. Nothing is asked
of the buffers or the weights.
-/

namespace KCut

variable {α : Type}

/-- The counters that listeners can follow. -/
def Statistics.work (s : Statistics) : Work :=
  ⟨s.trialsCompleted, s.localSearchCalls, s.localSearchRounds, s.vnsRounds⟩

/-- The scope `s'` is `s` some steps later: these beats have been added to the journal, with
the answers that the condition gave, and this work has been counted. -/
structure Scope.Went (s : Scope α) (beats : List Beat) (work : Work) (s' : Scope α) : Prop where
  course_eq : s'.journal.course = s.journal.course ++ beats
  asked : s.termination.Answers (Beat.answers beats) s'.termination
  work_eq : s'.statistics.work = s.statistics.work + work

namespace Scope.Went

variable {s s' s'' : Scope α} {beats more : List Beat} {work work' : Work}

theorem refl (s : Scope α) : s.Went [] 0 s :=
  ⟨(List.append_nil _).symm, .refl _, (add_zero _).symm⟩

theorem trans (h : s.Went beats work s') (h' : s'.Went more work' s'') :
    s.Went (beats ++ more) (work + work') s'' where
  course_eq := by rw [h'.course_eq, h.course_eq, List.append_assoc]
  asked := by
    rw [Beat.answers_append]
    exact h.asked.trans h'.asked
  work_eq := by rw [h'.work_eq, h.work_eq, add_assoc]

theorem task (h : s.Went beats work s') (event : TaskEvent) :
    s.Went (beats ++ [.task event]) work
      { s' with journal := s'.journal.push (.task event) } where
  course_eq := by
    rw [Journal.course_push, h.course_eq, List.append_assoc]
    rfl
  asked := by simpa using h.asked
  work_eq := h.work_eq

/-- Log entries and candidates are no beats. -/
theorem entered (h : s.Went beats work s') (entry : Entry α) (hsilent : entry.beat? = none) :
    s.Went beats work { s' with journal := s'.journal.push entry } where
  course_eq := by
    rw [Journal.course_push, hsilent, h.course_eq]
    exact List.append_nil _
  asked := h.asked
  work_eq := h.work_eq

theorem noted (h : s.Went beats work s') (n : Note α) :
    s.Went beats work { s' with journal := s'.journal.push (.noted n) } :=
  h.entered (.noted n) rfl

theorem polled (h : s.Went beats work s') :
    s.Went (beats ++ [.poll s'.termination.poll.1 s'.stream.position]) work { s' with
      termination := s'.termination.poll.2
      journal := s'.journal.push (.polled s'.termination.poll.1 s'.stream.position) } where
  course_eq := by
    rw [Journal.course_push, h.course_eq, List.append_assoc]
    rfl
  asked := by simpa using h.asked.snoc
  work_eq := h.work_eq

theorem counted (h : s.Went beats work s') (statistics : Statistics) (work' : Work)
    (hwork : statistics.work = s'.statistics.work + work') :
    s.Went beats (work + work') { s' with statistics } :=
  ⟨h.course_eq, h.asked, by rw [hwork, h.work_eq, add_assoc]⟩

theorem drawn (h : s.Went beats work s') (stream : Random.Stream) :
    s.Went beats work { s' with stream } :=
  ⟨h.course_eq, h.asked, h.work_eq⟩

/-- The same beats and the same work in another form. -/
theorem congr (h : s.Went beats work s') (hbeats : beats = more) (hwork : work = work') :
    s.Went more work' s' :=
  hbeats ▸ hwork ▸ h

end Scope.Went

/-- The same where all the work that can be heard has been counted, and no other. -/
def Scope.Shows (s : Scope α) (beats : List Beat) (s' : Scope α) : Prop :=
  s.Went beats (Work.heard (Beat.events beats)) s'

theorem Scope.Shows.trans {s s' s'' : Scope α} {beats more : List Beat} (h : s.Shows beats s')
    (h' : s'.Shows more s'') : s.Shows (beats ++ more) s'' :=
  (Scope.Went.trans h h').congr rfl (by rw [Beat.events_append, Work.heard_append])

/-- **A silent step** changes nothing but the stream. -/
theorem Run.Silent.only_draws {β : Type} {m : Run α β} (h : m.Silent) (s : Scope α) :
    m.Ensures s fun _ s' => ∃ stream, s' = { s with stream } := by
  induction h generalizing s with
  | pure b => exact ensures_pure.2 ⟨_, rfl⟩
  | bind hm hf ihm ihf =>
      refine ensures_bind.2 ((ihm s).mono ?_)
      rintro c _ ⟨stream, rfl⟩
      refine (ihf c _).mono ?_
      rintro b _ ⟨stream', rfl⟩
      exact ⟨stream', rfl⟩
  | check x => exact ensures_check.2 fun _ _ => ⟨_, rfl⟩
  | draw low high => exact ensures_draw fun _ stream => ⟨stream, rfl⟩
  | split => exact ensures_split fun _ rest => ⟨rest, rfl⟩

/-- It neither begins or ends a task nor polls nor counts. -/
theorem Run.Silent.went {β : Type} {m : Run α β} (h : m.Silent) (s : Scope α) :
    m.Ensures s fun _ s' => s.Went [] 0 s' := by
  refine (h.only_draws s).mono ?_
  rintro _ _ ⟨stream, rfl⟩
  exact (Scope.Went.refl s).drawn stream

open Course (around chain chainEnd)

/-- The scope `s'` is `s` after a chain of parts. -/
structure Scope.Chained (s : Scope α) (stopped : Bool) (parts : List (List Beat × Nat))
    (work : Work) (s' : Scope α) : Prop where
  end_eq : chainEnd s.stream.position parts = s'.stream.position
  went : s.Went (chain stopped s.stream.position parts) work s'

namespace Scope.Chained

variable {s s₁ s₂ : Scope α} {stopped : Bool} {parts : List (List Beat × Nat)} {work work' : Work}

theorem refl (s : Scope α) : s.Chained false [] 0 s :=
  ⟨rfl, .refl s⟩

/-- A poll has stopped the run in front of a part. -/
theorem stop (h : s.termination.poll.1 = true) :
    s.Chained true [] 0 { s with
      termination := s.termination.poll.2
      journal := s.journal.push (.polled true s.stream.position) } := by
  have hpolled := (Scope.Went.refl s).polled
  rw [h] at hpolled
  exact ⟨rfl, hpolled⟩

/-- A poll has let the run go on with a part, and others follow. -/
theorem cons {part : List Beat × Nat} (h : s.termination.poll.1 = false)
    (hpart : Scope.Went { s with
      termination := s.termination.poll.2
      journal := s.journal.push (.polled false s.stream.position) } part.1 work s₁)
    (hdrawn : part.2 = s₁.stream.position) (hrest : s₁.Chained stopped parts work' s₂) :
    s.Chained stopped (part :: parts) (work + work') s₂ := by
  have hpolled := (Scope.Went.refl s).polled
  rw [h] at hpolled
  refine ⟨?_, ?_⟩
  · rw [chainEnd, hdrawn]
    exact hrest.end_eq
  · refine ((hpolled.trans hpart).trans hrest.went).congr ?_ ?_
    · rw [chain, hdrawn]
      rfl
    · rw [zero_add]

/-- The part after which a run goes no further. -/
theorem last {part : List Beat × Nat} (h : s.termination.poll.1 = false)
    (hpart : Scope.Went { s with
      termination := s.termination.poll.2
      journal := s.journal.push (.polled false s.stream.position) } part.1 work s₁)
    (hdrawn : part.2 = s₁.stream.position) : s.Chained false [part] work s₁ := by
  have hlast := cons h hpart hdrawn (.refl s₁)
  rwa [add_zero] at hlast

end Scope.Chained

/-! ### Local searches -/

namespace LocalSearch

variable [Weight α] (ls : LocalSearch α)

/-- A round shows its two phases; it neither polls nor draws. -/
theorem round_went (order : List Partition) (p : Progress α) (scope : Scope α) :
    (ls.round order p).Ensures scope fun p' scope' =>
      p'.rounds = p.rounds + 1 ∧ scope'.stream = scope.stream ∧
        scope.Went Course.Descent.phases 0 scope' := by
  simp only [round, Run.ensures_bind, Run.ensures_begin, Run.ensures_check, Run.ensures_finish,
    Run.ensures_note, Run.ensures_pure, true_and]
  intro table _ marks _ s _
  exact ((((Scope.Went.refl scope).task _).task _).task _).task _ |>.noted _

theorem converge_went (schedule : Schedule) (bound : Nat) (p : Progress α) (scope : Scope α) :
    (ls.converge schedule bound p).Ensures scope fun p' scope' => ∃ d : Course.Descent,
      p'.rounds = p.rounds + d.rounds ∧ d.drawn = scope.stream.position ∧
        scope'.stream = scope.stream ∧ scope.Went d.loop 0 scope' := by
  induction bound generalizing p scope with
  | zero =>
      rw [converge]
      split
      · exact Run.ensures_error
      · exact Run.ensures_pure.2 ⟨⟨0, false, _⟩, rfl, rfl, rfl, .refl scope⟩
  | succ bound ih =>
      rw [converge]
      split
      · refine Run.ensures_bind.2 (Run.ensures_poll.2 ?_)
        have hpolled := (Scope.Went.refl scope).polled
        cases hstop : scope.termination.poll.1 with
        | true =>
            rw [hstop] at hpolled
            exact Run.ensures_pure.2 ⟨⟨0, true, _⟩, rfl, rfl, rfl, hpolled⟩
        | false =>
            rw [hstop] at hpolled
            refine Run.ensures_bind.2 ((round_went ls _ p _).mono ?_)
            intro p₁ scope₁ hround
            obtain ⟨hrounds, hstream, hwent⟩ := hround
            refine (ih p₁ scope₁).mono ?_
            intro p₂ scope₂ hrest
            obtain ⟨⟨rounds, stopped, drawn⟩, hrounds', hdrawn, hstream', hwent'⟩ := hrest
            obtain rfl : drawn = scope.stream.position :=
              hdrawn.trans (congrArg Random.Stream.position hstream)
            refine ⟨⟨rounds + 1, stopped, _⟩, ?_, rfl, hstream'.trans hstream,
              (hpolled.trans hwent).trans hwent'⟩
            rw [hrounds', hrounds, Nat.add_assoc, Nat.add_comm 1]
      · exact Run.ensures_pure.2 ⟨⟨0, false, _⟩, rfl, rfl, rfl, .refl scope⟩

/-- Scoring shows a cost phase. -/
theorem evaluateIn_went (order : List Partition) (assignment : Assignment) (scope : Scope α) :
    (ls.evaluateIn order assignment).Ensures scope fun _ scope' =>
      scope'.stream = scope.stream ∧ scope.Went (around .computeCost []) 0 scope' := by
  simp only [evaluateIn, Run.ensures_bind, Run.ensures_begin, Run.ensures_check,
    Run.ensures_finish, Run.ensures_pure, true_and]
  intro cost _
  exact ((Scope.Went.refl scope).task _).task _

/-- **The course of a local search**, all of which is counted in the end. -/
theorem compute_went (w : Workspace α) (c : Candidate α) (scope : Scope α) :
    (ls.compute w c).Ensures scope fun _ scope' => ∃ d : Course.Descent,
      d.drawn = scope.stream.position ∧ scope'.stream = scope.stream ∧
        scope.Shows d.beats scope' := by
  rw [compute, computeOn]
  simp only [Run.ensures_bind, Run.ensures_begin, Run.ensures_finish, Run.ensures_count,
    Run.ensures_pure]
  refine (converge_went ls _ _ _ _).mono ?_
  intro p scope₁ hconverged
  obtain ⟨d, hrounds, hdrawn, hstream, hwent⟩ := hconverged
  refine (evaluateIn_went ls _ _ _).mono ?_
  intro cost scope₂ hscored
  obtain ⟨hstream', hwent'⟩ := hscored
  have hstart := ((Scope.Went.refl scope).task (.began .localSearch)).task (.began .convergenceLoop)
  have hsearched := (((hstart.trans hwent).task (.ended .convergenceLoop)).trans hwent').task
    (.ended .localSearch)
  have hcounted := hsearched.counted (scope₂.statistics.recordLocalSearch p.rounds p.swaps)
    ⟨0, 1, p.rounds, 0⟩ rfl
  refine ⟨d, hdrawn, hstream'.trans hstream, hcounted.congr ?_ ?_⟩
  · simp [Course.Descent.beats, around]
  · rw [Course.Descent.events_beats, Course.heard_descent, hrounds]
    simp

end LocalSearch

/-! ### Neighborhood searches -/

namespace NeighborhoodSearch

variable [Weight α] (vns : NeighborhoodSearch) (ls : LocalSearch α)

/-- **A round holds one local search.** All draws are made before it. -/
theorem round_went (p : Progress α) (scope : Scope α) :
    (vns.round ls p).Ensures scope fun _ scope' => ∃ d : Course.Descent,
      d.drawn = scope'.stream.position ∧
        scope.Shows (Course.Search.round (p.order, d)).1 scope' := by
  rw [round]
  simp only [Run.ensures_bind, Run.ensures_begin, Run.ensures_check]
  intro start _
  refine (vns.perturbMany_silent.went _).mono ?_
  intro perturbed scope₁ hsilent
  refine (LocalSearch.compute_went ls p.workspace perturbed.2 scope₁).mono ?_
  intro searched scope₂ hsearched
  obtain ⟨d, hdrawn, hstream, hwent⟩ := hsearched
  simp only [Run.ensures_count, Run.ensures_note, Run.ensures_finish, Run.ensures_pure]
  have hround := (((Scope.Went.refl scope).task (.began (.vnsRound p.order))).trans hsilent).trans
    hwent
  refine ⟨d, hdrawn.trans (congrArg _ hstream.symm), ?_⟩
  have hcounted := hround.counted (scope₂.statistics.recordVnsRound
    (vns.settle { p with workspace := searched.2.1, neighbor := searched.2.2 }).1) ⟨0, 0, 0, 1⟩ rfl
  refine ((hcounted.noted _).task _).congr ?_ ?_
  · simp [Course.Search.round, around]
  · have hbegan : Work.heard [.began (.vnsRound p.order)] = ⟨0, 0, 0, 1⟩ := rfl
    rw [Course.Search.round, Course.events_around, Work.heard_around, hbegan, zero_add, zero_add,
      add_comm]

/-- The work of rounds that all of it can be heard of. -/
theorem heard_cons (r : Nat × Course.Descent) (rounds : List (Nat × Course.Descent)) :
    Work.heard (Beat.events (Course.Search.round r).1) +
        Work.heard ((rounds.map Course.Search.round).flatMap fun part => Beat.events part.1) =
      Work.heard (((r :: rounds).map Course.Search.round).flatMap fun part =>
        Beat.events part.1) := by
  rw [List.map_cons, List.flatMap_cons, Work.heard_append]

theorem search_went (bound : Nat) (p : Progress α) (scope : Scope α) :
    (vns.search ls bound p).Ensures scope fun _ scope' =>
      ∃ (rounds : List (Nat × Course.Descent)) (stopped : Bool),
        scope.Chained stopped (rounds.map Course.Search.round)
          (Work.heard ((rounds.map Course.Search.round).flatMap fun part => Beat.events part.1))
          scope' := by
  induction bound generalizing p scope with
  | zero =>
      rw [search]
      split
      · exact Run.ensures_error
      · exact Run.ensures_pure.2 ⟨[], false, .refl scope⟩
  | succ bound ih =>
      rw [search]
      split
      · refine Run.ensures_bind.2 (Run.ensures_poll.2 ?_)
        cases hstop : scope.termination.poll.1 with
        | true => exact Run.ensures_pure.2 ⟨[], true, .stop hstop⟩
        | false =>
            refine Run.ensures_bind.2 ((round_went vns ls p _).mono ?_)
            intro r scope₁ hround
            obtain ⟨d, hdrawn, hshows⟩ := hround
            dsimp only
            split
            · refine (ih r.2 scope₁).mono ?_
              intro p' scope₂ hrest
              obtain ⟨rounds, stopped, hrest⟩ := hrest
              refine ⟨(p.order, d) :: rounds, stopped, ?_⟩
              rw [← heard_cons]
              exact .cons hstop hshows hdrawn hrest
            · -- The search is stuck: no round follows.
              simp only [Run.ensures_bind, Run.ensures_count, Run.ensures_pure]
              refine ⟨[(p.order, d)], false, ?_⟩
              rw [← heard_cons]
              exact .last hstop (hshows.counted _ 0 (add_zero _).symm) hdrawn
      · exact Run.ensures_pure.2 ⟨[], false, .refl scope⟩

/-- **The course of a search** by its maximal order. -/
theorem compute_went (w : Workspace α) (neighbor best : Candidate α) (scope : Scope α) :
    (vns.compute ls w neighbor best).Ensures scope fun _ scope' => ∃ search : Course.Search,
      search.isScore = false ∧ search.Fits vns.maxOrder ∧
        search.drawn scope.stream.position = scope'.stream.position ∧
        scope.Shows (search.beats scope.stream.position) scope' := by
  rw [compute]
  by_cases hplain : vns.maxOrder = 0
  · simp only [if_pos hplain]
    refine Run.ensures_bind.2 ((LocalSearch.compute_went ls w best scope).mono ?_)
    intro r scope' hsearched
    obtain ⟨⟨rounds, stopped, drawn⟩, hdrawn, hstream, hshows⟩ := hsearched
    obtain rfl : drawn = scope.stream.position := hdrawn
    exact Run.ensures_pure.2 ⟨.plain rounds stopped, rfl, hplain, by rw [hstream]; rfl, hshows⟩
  · simp only [if_neg hplain, Run.ensures_bind, Run.ensures_begin]
    refine (search_went vns ls _ _ _).mono ?_
    intro p scope' hsearched
    obtain ⟨rounds, stopped, hchained⟩ := hsearched
    simp only [Run.ensures_finish, Run.ensures_note, Run.ensures_pure]
    refine ⟨.neighborhoods rounds stopped, rfl, Nat.pos_of_ne_zero hplain, hchained.end_eq, ?_⟩
    have hstart := (Scope.Went.refl scope).task (.began .variableNeighborhoodSearch)
    have hend := ((hstart.trans hchained.went).task (.ended .variableNeighborhoodSearch)).noted
      (.vnsEnd p.outcome.rounds p.outcome.improvements p.outcome.stuck p.best.cost)
    refine hend.congr ?_ ?_
    · simp [Course.Search.beats, around]
    · rw [Course.Search.beats, Course.events_around, Course.events_chain, Work.heard_around]
      rfl

end NeighborhoodSearch

end KCut
