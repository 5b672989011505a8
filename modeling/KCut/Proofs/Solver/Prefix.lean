import KCut.Proofs.Beginning
import KCut.Proofs.Course.Solver
import KCut.Proofs.Solver.Answer
import KCut.Proofs.Solver.Records
import KCut.Proofs.Twins.CostMap

/-!
# KCut.Proofs.Solver.Prefix

Shorter runs as beginnings of longer ones.

A run that is never stopped leads the run on the same problem that makes fewer trials and may be
stopped at any poll (`trials_lead`): up to its first stop the shorter run makes the entries of
the longer one. So the candidates that it has scored by then are those of the longer run, in the
same trials. Later trials take no record back, so these candidates have been sent by both runs
or by none; and what the longer run scores besides can only make its answer better.
-/

namespace KCut

open Course (around)

/-- No trial ends while another one searches. -/
theorem Course.Search.endedTrial?_of_mem {s : Course.Search} {event : TaskEvent}
    (h : event ∈ s.events) : event.endedTrial? = none := by
  have hheard : ∀ {rounds : Nat}, event ∈ Descent.heard rounds → event.endedTrial? = none := by
    intro rounds hmem
    simp only [Descent.heard, Task.around, List.mem_cons, List.mem_append, List.mem_flatten,
      List.mem_replicate] at hmem
    grind [TaskEvent.endedTrial?]
  cases s with
  | score =>
      simp only [events, Task.around, List.mem_cons, List.nil_append, List.not_mem_nil,
        or_false] at h
      rcases h with rfl | rfl <;> rfl
  | plain rounds stopped => exact hheard h
  | neighborhoods rounds stopped =>
      simp only [events, Task.around, List.mem_cons, List.mem_append, List.mem_flatMap,
        List.not_mem_nil, or_false] at h
      rcases h with rfl | ⟨r, -, rfl | hmem | rfl⟩ | rfl
      · rfl
      · rfl
      · exact hheard hmem
      · rfl
      · rfl

namespace Solver

open NeighborhoodSearch (Overflow)

variable {α : Type} [Weight α] {s s' : Solver α} {index remaining remaining' : Nat}
  {b b₁ b₁' : Buffers α} {scope scope' t t' : Scope α}

/-! ### One trial -/

/-- The last entry of a trial says that it has ended. -/
theorem trial_last (s : Solver α) (index : Nat) (b : Buffers α) (scope : Scope α) :
    (s.trial index b).Ensures scope fun _ scope' =>
      ∃ j : Journal α, scope'.journal = j.push (.task (.ended (.trial index))) := by
  rw [trial]
  refine Run.ensures_bind.2 fun _ _ _ => Run.ensures_bind.2 fun b₁ _ _ => ?_
  refine Run.ensures_bind.2 fun stop _ _ => ?_
  cases stop with
  | true =>
      refine Run.ensures_bind.2 fun b₂ _ _ => Run.ensures_bind.2 fun r _ _ => ?_
      exact Run.ensures_bind.2 (Run.ensures_finish.2 (Run.ensures_pure.2 ⟨_, rfl⟩))
  | false =>
      refine Run.ensures_bind.2 fun b₂ _ _ => Run.ensures_bind.2 fun r _ _ => ?_
      refine Run.ensures_bind.2 fun _ _ _ => Run.ensures_bind.2 fun _ _ _ => ?_
      exact Run.ensures_bind.2 (Run.ensures_finish.2 (Run.ensures_pure.2 ⟨_, rfl⟩))

omit [Weight α] in
/-- What is heard of some steps is read off the entries that they have made. -/
theorem events_of_later {j : Journal α} {beats : List Beat} {work : Work}
    (h : scope.Later j scope') (hwent : scope.Went beats work scope') :
    j.events = Beat.events beats := by
  have hevents : Journal.events scope'.journal = scope.journal.events ++ Beat.events beats := by
    rw [← Journal.events_course, hwent.course_eq, Beat.events_append, Journal.events_course]
  rw [h.journal_eq, Journal.events_append] at hevents
  exact List.append_cancel_left hevents

/-- **A trial scores its candidate before it ends.** -/
theorem trial_closed {minBatch : Nat} (hrandom : s.construction = .random minBatch)
    {r : Bool × Buffers α} (h : s.trial index b scope = .ok (r, scope')) :
    ∃ j, scope.Later j scope' ∧ j.Closed := by
  obtain ⟨j, hlater⟩ := (trial_composed (builds_of_random hrandom) index b).later scope _ _ h
  obtain ⟨before, hlast⟩ := trial_last s index b scope _ _ h
  obtain ⟨gone, -, -, -, hwent⟩ := trial_went hrandom index b scope _ _ h
  obtain ⟨goOn, b'⟩ := r
  obtain ⟨t, rfl, hdecided⟩ := trial_decides (hrandom ▸ Construction.discreet_random minBatch) h
  have hevents := events_of_later hlater hwent
  rw [Course.Trial.events_beats] at hevents
  obtain ⟨j₀, e, rfl⟩ : ∃ (j₀ : Journal α) (e : Entry α), j = j₀.push e := by
    refine Array.exists_push_of_ne_empty ?_
    rintro rfl
    exact nomatch hevents
  have hpush := hlater.journal_eq.symm.trans hlast
  rw [Array.append_push] at hpush
  obtain ⟨rfl, -⟩ := Array.push_eq_push.1 hpush
  have hscored := hdecided.scored_eq
  rw [hlater.journal_eq, Array.push_eq_append, Journal.scoredTrials_append,
    Journal.scoredTrials_append] at hscored
  refine ⟨_, hlater, .ended ?_ ?_⟩
  · -- Nothing but the trial itself ends with it.
    have hinner : j₀.events = .began (.trial t.trial) ::
        (Task.construction.around [] ++ gone.search.events) := by
      rw [Course.Trial.events, Journal.events_push_task] at hevents
      exact List.append_inj_left' (hevents.trans (List.cons_append).symm) rfl
    rw [Journal.endedTrials, List.filterMap_eq_nil_iff, hinner]
    intro event hmem
    rcases List.mem_cons.1 hmem with rfl | hmem
    · rfl
    · rcases List.mem_append.1 hmem with hbuilt | hsearched
      · simp only [Task.around, List.nil_append, List.mem_cons, List.not_mem_nil,
          or_false] at hbuilt
        rcases hbuilt with rfl | rfl <;> rfl
      · exact Course.Search.endedTrial?_of_mem hsearched
  · have hlist := List.append_cancel_left hscored
    have hend : Journal.scoredTrials #[Entry.task (α := α) (.ended (.trial t.trial))] = [] := rfl
    rw [hend, List.append_nil] at hlist
    rw [hlist]
    exact List.mem_singleton_self t

/-! ### Trials -/

theorem trials_closed {minBatch : Nat} (hrandom : s.construction = .random minBatch)
    (h : s.trials remaining index b scope = .ok (b₁, scope')) :
    ∃ j, scope.Later j scope' ∧ j.Closed := by
  induction remaining generalizing index b scope with
  | zero =>
      cases h
      exact ⟨_, .refl _, Journal.closed_of_endedTrials rfl⟩
  | succ remaining ih =>
      rw [trials] at h
      obtain ⟨stop, scope₁, hpoll, h⟩ := Run.bind_eq_ok h
      have hpolled := Scope.Later.polled scope
      cases hpoll
      have hclosed : Journal.Closed #[Entry.polled (α := α) scope.termination.poll.1
          scope.stream.position] := Journal.closed_of_endedTrials rfl
      split at h
      · cases h
        exact ⟨_, hpolled, hclosed⟩
      · obtain ⟨⟨goOn, b₂⟩, scope₂, htrial, h⟩ := Run.bind_eq_ok h
        obtain ⟨j, hj, hjclosed⟩ := trial_closed hrandom htrial
        cases goOn with
        | true =>
            obtain ⟨k, hk, hkclosed⟩ := ih h
            exact ⟨_, (hpolled.trans hj).trans hk, (hclosed.append hjclosed).append hkclosed⟩
        | false =>
            cases h
            exact ⟨_, hpolled.trans hj, hclosed.append hjclosed⟩

/-- **Runs lead those that make fewer trials**, whatever stops these. -/
theorem trials_lead (hbuilds : s.Builds) (hbuilds' : s'.Builds)
    (hsame : ∀ index b, s'.trial index b = s.trial index b) (hle : remaining' ≤ remaining)
    (hscope : scope.Abreast scope')
    (h : s.trials remaining index b scope = .ok (b₁, t))
    (h' : s'.trials remaining' index b scope' = .ok (b₁', t')) :
    Scope.Leads scope scope' t t' := by
  induction remaining' generalizing remaining index b scope scope' with
  | zero =>
      cases h'
      obtain ⟨j, hj⟩ := (trials_composed hbuilds _ index _).later scope _ _ h
      exact ⟨j, _, hj, .refl _, .empty j⟩
  | succ remaining' ih =>
      obtain ⟨more, rfl⟩ : ∃ more, remaining = more + 1 := Nat.exists_eq_add_one.2 (by omega)
      have hrest : ∀ {s : Solver α}, s.Builds → ∀ n (r : Bool × Buffers α),
          (if r.1 then s.trials n (index + 1) r.2 else pure r.2).Composed := by
        intro s hs n r
        split
        · exact trials_composed hs n _ _
        · exact .pure _
      rw [trials] at h h'
      refine Run.Composed.poll.bind_leads ?_ ?_ hscope h h' ?_
      · intro stop
        split
        · exact .pure b
        · exact (trial_composed hbuilds index b).bind (hrest hbuilds more)
      · intro stop
        split
        · exact .pure b
        · exact (trial_composed hbuilds' index b).bind (hrest hbuilds' remaining')
      · intro stop u u' hu h h'
        cases stop with
        | true =>
            cases h
            cases h'
            exact ⟨_, _, .refl _, .refl _, .refl _⟩
        | false =>
            simp only [Bool.false_eq_true, if_false, hsame] at h h'
            refine (trial_composed hbuilds index b).bind_leads (hrest hbuilds more)
              (hrest hbuilds' remaining') hu h h' ?_
            rintro ⟨goOn, b₂⟩ v v' hv h h'
            cases goOn with
            | true => exact ih (by omega) hv h h'
            | false =>
                cases h
                cases h'
                exact ⟨_, _, .refl _, .refl _, .refl _⟩

/-! ### Runs -/

/-- The scope in which the first trial of a run begins. -/
def firstScope (s : Solver α) (seed : UInt64) : Scope α :=
  { s.startScope seed with
    journal := (s.startScope seed).journal.push (.task (.began .grasp)) }

/-- The entries of a run are those of its trials, between the first and the last ones. -/
theorem compute_trials (hpos : 0 < s.graph.nodeCount) {seed : UInt64} {report : Report α}
    (h : s.compute seed = .ok report) : ∃ b scope note,
      s.trials s.config.iterations 1 s.buffers (s.firstScope seed) = .ok (b, scope) ∧
      report.journal = scope.journal ++ #[.task (.ended .grasp), .noted note] := by
  obtain ⟨b, scope, hgrasp, hreports⟩ := grasp_of_compute hpos h
  rw [grasp] at hgrasp
  obtain ⟨_, scope₁, hbegin, hgrasp⟩ := Run.bind_eq_ok hgrasp
  obtain ⟨b₂, scope₂, htrials, hgrasp⟩ := Run.bind_eq_ok hgrasp
  obtain ⟨_, scope₃, hfinish, hgrasp⟩ := Run.bind_eq_ok hgrasp
  cases hbegin
  cases hfinish
  cases hgrasp
  have hpush (note : Note α) : (scope₂.journal.push (.task (.ended .grasp))).push (.noted note) =
      scope₂.journal ++ #[.task (.ended .grasp), .noted note] := Array.ext' (by simp)
  exact ⟨_, _, _, htrials, hreports.journal_eq.trans (hpush _)⟩

/-- Two reports on the same problem: up to any beginning of the second run without a stop, both
runs have scored the same candidates, those of all trials that have ended by then among them. -/
structure Agree (report report' : Report α) : Prop where
  exists_common : ∀ before, report'.journal.StartsWith before → true ∉ before.answers →
    ∃ common rest rest', report.journal.scoredTrials = common ++ rest ∧
      report'.journal.scoredTrials = common ++ rest' ∧
      ∀ i ∈ before.endedTrials, ∃ t ∈ common, t.trial = i
  prefix_of_calm : true ∉ report'.journal.answers →
    report'.journal.scoredTrials <+: report.journal.scoredTrials

/-- **A run that is never stopped leads every shorter one.** -/
theorem compute_agree {minBatch : Nat} (hpos : 0 < s.graph.nodeCount)
    (hrandom : s.construction = .random minBatch) (hrandom' : s'.construction = .random minBatch)
    (hpos' : 0 < s'.graph.nodeCount)
    (hsame : ∀ index b, s'.trial index b = s.trial index b) (hbuffers : s'.buffers = s.buffers)
    (hle : s'.config.iterations ≤ s.config.iterations) {seed : UInt64}
    (hstart : (s.firstScope seed).Abreast (s'.firstScope seed)) {report report' : Report α}
    (h : s.compute seed = .ok report) (h' : s'.compute seed = .ok report') :
    Agree report report' := by
  obtain ⟨b, scope, note, htrials, hjournal⟩ := compute_trials hpos h
  obtain ⟨b', scope', note', htrials', hjournal'⟩ := compute_trials hpos' h'
  rw [hbuffers] at htrials'
  obtain ⟨j, j', hj, hj', hleads⟩ := trials_lead (builds_of_random hrandom)
    (builds_of_random hrandom') hsame hle hstart htrials htrials'
  obtain ⟨_, hclosing, hclosed⟩ := trials_closed hrandom' htrials'
  obtain rfl := hj'.unique hclosing
  rw [hj.journal_eq] at hjournal
  rw [hj'.journal_eq] at hjournal'
  have hhead : (s.firstScope seed).journal.Bare := ⟨rfl, rfl, rfl⟩
  have hhead' : (s'.firstScope seed).journal.Bare := ⟨rfl, rfl, rfl⟩
  have htail (note : Note α) : Journal.Bare #[.task (.ended .grasp), .noted note] :=
    ⟨rfl, rfl, rfl⟩
  have hscored : report.journal.scoredTrials = j.scoredTrials := by
    rw [hjournal, Journal.scoredTrials_append, Journal.scoredTrials_append, hhead.scored_eq,
      (htail note).scored_eq, List.nil_append, List.append_nil]
  have hscored' : report'.journal.scoredTrials = j'.scoredTrials := by
    rw [hjournal', Journal.scoredTrials_append, Journal.scoredTrials_append, hhead'.scored_eq,
      (htail note').scored_eq, List.nil_append, List.append_nil]
  constructor
  · intro before hbefore hcalm
    rw [hjournal'] at hbefore
    obtain ⟨k, hk, hanswers, -, hended⟩ :=
      Journal.exists_startsWith_of_framed hhead' (htail note') hbefore
    rw [hanswers] at hcalm
    have hshown := hclosed k hk
    obtain ⟨more, rfl⟩ := hleads k hk hcalm
    obtain ⟨more', rfl⟩ := hk
    refine ⟨k.scoredTrials, _, _, hscored.trans (Journal.scoredTrials_append k more),
      hscored'.trans (Journal.scoredTrials_append k more'), ?_⟩
    rw [hended]
    exact hshown
  · intro hcalm
    rw [hjournal', Journal.answers_append, Journal.answers_append, hhead'.answers_eq,
      (htail note').answers_eq, List.nil_append, List.append_nil] at hcalm
    obtain ⟨more, rfl⟩ := hleads j' ⟨#[], Array.append_empty.symm⟩ hcalm
    rw [hscored, hscored', Journal.scoredTrials_append]
    exact List.prefix_append _ _

/-- The best cost of more candidates is no worse. -/
theorem answer_eq_or_prefers {s s' : Solver Rat} {best best' : Slot Rat} {scope scope' : Scope Rat}
    (h : Books s best scope) (h' : Books s' best' scope')
    (hbegins : scope'.journal.scoredTrials <+: scope.journal.scoredTrials) :
    best.cost = best'.cost ∨ s.config.objective.prefers best.cost best'.cost = true := by
  refine s.config.objective.eq_or_prefers_rat (h.unbeaten _ ?_)
  obtain ⟨more, hmore⟩ := hbegins
  rw [costs, ← hmore, List.map_append, ← List.cons_append]
  exact List.mem_append_left _ h'.best_mem

section

variable {l : EdgeList Rat} {g : Graph Rat} {c : Config}

/-- **A shorter run is a beginning of a longer one.** Of two runs on the same problem, let the
first one never be stopped, and let the second one make as many trials at most and be stopped at
any poll. Unless two community ids overflow, both have a report. Each trial that the second run
has ended before its first stop has the same candidate and cost in both, and of these trials
both send the same messages. If the second run is never stopped either, the first one ends with
the same cost or with a better one. -/
theorem shorter_run_is_beginning (hbuild : l.build = .ok g) (hpos : 0 < g.nodeCount)
    (hword : g.nodeCount < Tally.modulus) (haccepted : c.problemFor? g.nodeCount = .ok none)
    (hk : c.k < 2 ^ 32) (minBatch : Nat) (termination : Option Termination) (listeners : Nat)
    (hnever : (Solver.condition (⟨g, c, .random minBatch, termination, listeners⟩ :
      Solver Rat)).NeverFires) {fewer : Nat} (hfewer : fewer ≤ c.iterations)
    (haccepted' : { c with iterations := fewer }.problemFor? g.nodeCount = .ok none)
    (termination' : Option Termination) (seed : UInt64) :
    let long : Solver Rat := ⟨g, c, .random minBatch, termination, listeners⟩
    let short : Solver Rat := ⟨g, { c with iterations := fewer }, .random minBatch, termination',
      listeners⟩
    (1 < c.vnsMaxNeighborhoodOrder ∧ 2 ^ 31 < c.k ∧ ∃ sum,
      long.compute seed = .error (.overflow sum) ∨ short.compute seed = .error (.overflow sum)) ∨
    ∃ report report', long.compute seed = .ok report ∧ short.compute seed = .ok report' ∧
      (∀ before after : Journal Rat, report'.journal = before ++ after → true ∉ before.answers →
        (∀ i ∈ before.endedTrials, ∃ t : ScoredTrial Rat, t.trial = i ∧
          report'.journal.scoredTrials.filter (·.trial = i) = [t] ∧
          report.journal.scoredTrials.filter (·.trial = i) = [t]) ∧
        report'.journal.messages.filter (·.trial ∈ before.endedTrials) =
          report.journal.messages.filter (·.trial ∈ before.endedTrials)) ∧
      (short.condition.NeverFires → report.answer.cost = report'.answer.cost ∨
        c.objective.prefers report.answer.cost report'.answer.cost = true) := by
  intro long short
  have hlong : long.Suits := suits_of_build hbuild hpos hword haccepted hk minBatch _ _
  have hshort : short.Suits := suits_of_build hbuild hpos hword haccepted' hk minBatch _ _
  rcases compute_concluded hlong seed with ⟨fault, hcompute, horder, hwide, sum, rfl⟩ |
    ⟨report, -, -, hcompute, -⟩
  · exact Or.inl ⟨horder, hwide, sum, Or.inl hcompute⟩
  rcases compute_concluded hshort seed with ⟨fault, hcompute', horder, hwide, sum, rfl⟩ |
    ⟨report', _, _, hcompute', hconcluded⟩
  · exact Or.inl ⟨horder, hwide, sum, Or.inr hcompute'⟩
  have hsame : ∀ index b, short.trial index b = long.trial index b := fun _ _ => rfl
  have hagree : Agree report report' :=
    compute_agree hpos rfl rfl hpos hsame rfl hfewer ⟨rfl, rfl, hnever⟩ hcompute hcompute'
  obtain ⟨best, ⟨_, _, _, _, statistics, _⟩, hbooks, rfl, hanswer⟩ := compute_keeps_books hpos
    (Construction.discreet_random minBatch) hcompute fun t _ => t.cost.comparable_rat
  obtain ⟨best', ⟨_, _, _, _, statistics', _⟩, hbooks', rfl, hanswer'⟩ := compute_keeps_books hpos
    (Construction.discreet_random minBatch) hcompute' fun t _ => t.cost.comparable_rat
  refine Or.inr ⟨report, report', hcompute, hcompute', ?_, ?_⟩
  · intro before after hjournal hcalm
    obtain ⟨common, rest, rest', hscored, hscored', hended⟩ :=
      hagree.exists_common before ⟨after, hjournal⟩ hcalm
    have hordered := hbooks.pairwise_trials
    have hordered' := hbooks'.pairwise_trials
    have hmessages := hbooks.messages_eq
    have hmessages' := hbooks'.messages_eq
    dsimp only at hordered hordered' hmessages hmessages'
    rw [hscored] at hordered hmessages ⊢
    rw [hscored'] at hordered' hmessages' ⊢
    refine ⟨fun i hi => ?_, ?_⟩
    · obtain ⟨t, ht, rfl⟩ := hended i hi
      exact ⟨t, rfl,
        Objective.filter_trial_eq_singleton hordered' (List.mem_append_left rest' ht),
        Objective.filter_trial_eq_singleton hordered (List.mem_append_left rest ht)⟩
    · rw [hmessages, hmessages', Objective.filter_records_append hordered hended,
        Objective.filter_records_append hordered' hended]
      rfl
  · intro hnever'
    obtain ⟨_, hasked⟩ := hconcluded.asked
    rw [hanswer, hanswer']
    exact answer_eq_or_prefers hbooks hbooks' (hagree.prefix_of_calm (hnever'.answers hasked))

/-- Three trials on the undirected triangle, against two of which the second one is stopped in
its local search, and against two that nothing stops. -/
theorem beginning_triangle :
    let s (iterations : Nat) (termination : Termination) : Solver Rat :=
      ⟨(EdgeList.triangle true).toGraph,
        { Config.default with iterations, minCommunitySizes := [2, 1] }, .random 1,
        some termination, 0⟩
    ∃ report stopped shorter first, (s 3 .never).compute 7 = .ok report ∧
      (s 2 (.afterPolls 5)).compute 7 = .ok stopped ∧ (s 2 .never).compute 7 = .ok shorter ∧
      true ∈ stopped.journal.answers ∧ first.trial = 1 ∧
      stopped.journal.scoredTrials.filter (·.trial = 1) = [first] ∧
      report.journal.scoredTrials.filter (·.trial = 1) = [first] ∧
      (report.answer.cost = shorter.answer.cost ∨
        Objective.maximize.prefers report.answer.cost shorter.answer.cost = true) := by
  intro s
  have hrun : ((s 2 (.afterPolls 5)).compute 7).toOption.map
      (fun report => (Journal.endedTrials (report.journal.extract 0 30),
        Journal.answers (report.journal.extract 0 30), report.journal.answers.contains true)) =
        some ([1], List.replicate 4 false, true) := by
    decide +kernel
  have hlead (termination' : Option Termination) := shorter_run_is_beginning
    (EdgeList.build_triangle true) (c := (s 3 .never).config) (by decide) (by decide) (by decide)
    (by decide) 1 (some .never) 0 (.of_poll_eq rfl) (by decide : 2 ≤ 3) (by decide) termination' 7
  rcases hlead (some (.afterPolls 5)) with ⟨-, hwide, -⟩ |
    ⟨report, stopped, hcompute, hstopped, hcandidates, -⟩
  · exact absurd hwide (by decide)
  rcases hlead (some .never) with ⟨-, hwide, -⟩ | ⟨report', shorter, hcompute', hshorter, -, hcost⟩
  · exact absurd hwide (by decide)
  obtain rfl : report = report' := Except.ok.inj (hcompute.symm.trans hcompute')
  rw [hstopped] at hrun
  obtain ⟨hended, hrest⟩ := Prod.mk.inj (Option.some.inj hrun)
  obtain ⟨hanswers, hfired⟩ := Prod.mk.inj hrest
  have hcut : stopped.journal =
      stopped.journal.extract 0 30 ++ stopped.journal.extract 30 stopped.journal.size := by
    rw [Array.extract_append_extract]
    exact (Array.extract_eq_self_of_le (Nat.le_max_right _ _)).symm
  obtain ⟨hfirst, -⟩ := hcandidates _ _ hcut (by rw [hanswers]; decide)
  obtain ⟨first, htrial, hshort, hlong⟩ := hfirst 1 (by rw [hended]; decide)
  exact ⟨report, stopped, shorter, first, hcompute, hstopped, hshorter,
    List.contains_iff_mem.1 hfired, htrial, hshort, hlong, hcost (.of_poll_eq rfl)⟩

end

end Solver

end KCut
