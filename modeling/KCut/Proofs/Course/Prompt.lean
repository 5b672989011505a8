import KCut.Proofs.Course.Solver
import KCut.Proofs.Safety.Solver

/-!
# KCut.Proofs.Course.Prompt

A stopped run comes to its end at once.

`WindsDown` says what may still be in a part of a course behind the first poll that has
stopped the run. It is added up from the innermost part outwards: a local search scores what
it has reached; each chain of parts that it stands in polls once more, and that poll stops
the chain because the condition stays stopped (`chain_prompt`). There are three chains, the
rounds of a local search, those of a neighborhood search and the trials, of which two may
poll after the stop.
-/

namespace KCut.Course

/-- The answers of a condition that stays stopped. -/
def Stays (answers : List Bool) : Prop :=
  answers.Pairwise fun stop later => stop = true → later = true

/-- All that may follow on a stop that was asked for when `drawn` words had been drawn: tasks
end, up to `costs` cost phases begin, and up to `polls` polls stop the run again, with no
further word drawn. -/
structure WindsDown (polls costs drawn : Nat) (beats : List Beat) : Prop where
  began_eq : ∀ task, .began task ∈ Beat.events beats → task = .computeCost
  costs_le : (Beat.events beats).count (.began .computeCost) ≤ costs
  polls_le : (Beat.answers beats).length ≤ polls
  poll_eq : ∀ stop later, .poll stop later ∈ beats → stop = true ∧ later = drawn

/-- If the run is stopped in a part of its course, then only once, and the rest of the part
winds it down. -/
def Prompt (polls costs drawn : Nat) (beats : List Beat) : Prop :=
  true ∉ Beat.answers beats ∨ ∃ before after, beats = before ++ .poll true drawn :: after ∧
    true ∉ Beat.answers before ∧ WindsDown polls costs drawn after

section

variable {polls polls' costs costs' drawn : Nat} {beats more : List Beat}

namespace WindsDown

theorem nil : WindsDown 0 0 drawn [] :=
  ⟨by simp, by simp, by simp, by simp⟩

theorem append (h : WindsDown polls costs drawn beats) (h' : WindsDown polls' costs' drawn more) :
    WindsDown (polls + polls') (costs + costs') drawn (beats ++ more) where
  began_eq task hmem := by
    rw [Beat.events_append, List.mem_append] at hmem
    exact hmem.elim (h.began_eq task) (h'.began_eq task)
  costs_le := by
    rw [Beat.events_append, List.count_append]
    exact Nat.add_le_add h.costs_le h'.costs_le
  polls_le := by
    rw [Beat.answers_append, List.length_append]
    exact Nat.add_le_add h.polls_le h'.polls_le
  poll_eq stop later hmem :=
    (List.mem_append.1 hmem).elim (h.poll_eq stop later) (h'.poll_eq stop later)

theorem mono (h : WindsDown polls costs drawn beats) (hpolls : polls ≤ polls')
    (hcosts : costs ≤ costs') : WindsDown polls' costs' drawn beats :=
  ⟨h.began_eq, h.costs_le.trans hcosts, h.polls_le.trans hpolls, h.poll_eq⟩

theorem ended (task : Task) : WindsDown 0 0 drawn [.task (.ended task)] :=
  ⟨by simp, by simp, by simp, by simp⟩

theorem cost : WindsDown 0 1 drawn (around .computeCost []) :=
  ⟨by simp [Task.around], by simp [Task.around], by simp, by simp [around]⟩

theorem stop : WindsDown 1 0 drawn [.poll true drawn] :=
  ⟨by simp, by simp, by simp, by simp⟩

end WindsDown

namespace Prompt

theorem mono (h : Prompt polls costs drawn beats) (hpolls : polls ≤ polls')
    (hcosts : costs ≤ costs') : Prompt polls' costs' drawn beats := by
  refine h.imp_right ?_
  rintro ⟨before, after, hbeats, hcalm, hdown⟩
  exact ⟨before, after, hbeats, hcalm, hdown.mono hpolls hcosts⟩

theorem prepend (h : Prompt polls costs drawn beats) (hcalm : true ∉ Beat.answers more) :
    Prompt polls costs drawn (more ++ beats) := by
  refine h.imp ?_ ?_
  · intro hbeats
    simp [hcalm, hbeats]
  · rintro ⟨before, after, rfl, hbefore, hdown⟩
    exact ⟨more ++ before, after, (List.append_assoc _ _ _).symm, by simp [hcalm, hbefore], hdown⟩

theorem cons (h : Prompt polls costs drawn beats) {beat : Beat}
    (hcalm : true ∉ Beat.answers [beat]) : Prompt polls costs drawn (beat :: beats) :=
  h.prepend hcalm

theorem append (h : Prompt polls costs drawn beats) (hcalm : true ∉ Beat.answers more)
    (hmore : WindsDown polls' costs' drawn more) :
    Prompt (polls + polls') (costs + costs') drawn (beats ++ more) := by
  refine h.imp ?_ ?_
  · intro hbeats
    simp [hcalm, hbeats]
  · rintro ⟨before, after, rfl, hbefore, hdown⟩
    exact ⟨before, after ++ more, by simp, hbefore, hdown.append hmore⟩

theorem around (h : Prompt polls costs drawn beats) (task : Task) :
    Prompt polls costs drawn (around task beats) :=
  (h.append (by simp) (.ended task)).cons (by simp)

theorem stop : Prompt 0 0 drawn [.poll true drawn] :=
  Or.inr ⟨[], [], rfl, by simp, .nil⟩

end Prompt

/-! ### Chains -/

/-- Parts without a stop: only the poll behind them may stop the chain. -/
theorem chain_calm {stopped : Bool} {parts : List (List Beat × Nat)}
    (hparts : ∀ part ∈ parts, true ∉ Beat.answers part.1) :
    Prompt 0 0 (chainEnd drawn parts) (chain stopped drawn parts) := by
  induction parts generalizing drawn with
  | nil =>
      cases stopped with
      | true => exact .stop
      | false => exact Or.inl (by simp [chain])
  | cons part rest ih =>
      have hrest : Prompt 0 0 (chainEnd part.2 rest) (chain stopped part.2 rest) :=
        ih fun part' hmem => hparts part' (List.mem_cons_of_mem part hmem)
      exact (hrest.prepend (hparts part List.mem_cons_self)).cons (by simp)

/-- A chain whose polls stop it has no part. -/
theorem chain_windsDown {stopped : Bool} {parts : List (List Beat × Nat)}
    (hstop : ∀ answer ∈ Beat.answers (chain stopped drawn parts), answer = true) :
    chainEnd drawn parts = drawn ∧ WindsDown 1 0 drawn (chain stopped drawn parts) := by
  cases parts with
  | nil =>
      cases stopped with
      | true => exact ⟨rfl, .stop⟩
      | false => exact ⟨rfl, WindsDown.nil.mono (Nat.zero_le 1) (Nat.le_refl 0)⟩
  | cons part rest =>
      -- In front of a part the run went on.
      have hrunning := hstop false (by simp [chain])
      exact absurd hrunning Bool.false_ne_true

/-- **A chain of prompt parts is prompt**: it polls once more than the part in which it was
stopped. -/
theorem chain_prompt {stopped : Bool} {parts : List (List Beat × Nat)}
    (hparts : ∀ part ∈ parts, Stays (Beat.answers part.1) → Prompt polls costs part.2 part.1)
    (hstays : Stays (Beat.answers (chain stopped drawn parts))) :
    Prompt (polls + 1) costs (chainEnd drawn parts) (chain stopped drawn parts) := by
  induction parts generalizing drawn with
  | nil => exact (chain_calm (by simp)).mono (Nat.zero_le _) (Nat.zero_le _)
  | cons part rest ih =>
      rw [chain, Beat.answers_poll, Beat.answers_append] at hstays
      obtain ⟨hpart, hrest, hcross⟩ := List.pairwise_append.1 (List.pairwise_cons.1 hstays).2
      rcases hparts part List.mem_cons_self hpart with hcalm | hhalts
      · have hnext := ih (fun part' hmem => hparts part' (List.mem_cons_of_mem part hmem)) hrest
        exact (hnext.prepend hcalm).cons (by simp)
      · -- The part was stopped, and so are all polls behind it.
        obtain ⟨before, after, hbeats, hbefore, hdown⟩ := hhalts
        have hmem : true ∈ Beat.answers part.1 := by
          rw [hbeats]
          simp
        obtain ⟨hend, hlast⟩ := chain_windsDown fun answer hanswer =>
          hcross true hmem answer hanswer rfl
        refine Or.inr ⟨.poll false drawn :: before, after ++ chain stopped part.2 rest, ?_, ?_, ?_⟩
        · rw [chain, chainEnd, hend, hbeats]
          simp
        · simpa using hbefore
        · rw [chainEnd, hend]
          exact hdown.append hlast

end

/-! ### The parts of a run -/

theorem chainEnd_replicate (n : Nat) (part : List Beat) (drawn : Nat) :
    chainEnd drawn (List.replicate n (part, drawn)) = drawn := by
  induction n with
  | zero => rfl
  | succ n ih => exact ih

/-- A local search that is stopped has its cost left to compute. -/
theorem Descent.prompt (d : Descent) : Prompt 0 1 d.drawn d.beats := by
  have hloop : Prompt 0 0 d.drawn d.loop := by
    have hcalm : Prompt 0 0 (chainEnd d.drawn (List.replicate d.rounds (phases, d.drawn))) d.loop :=
      chain_calm fun part hmem => by
        rw [List.eq_of_mem_replicate hmem]
        simp [phases]
    rwa [chainEnd_replicate] at hcalm
  exact ((hloop.around .convergenceLoop).append (by simp) .cost).around .localSearch

/-- A search that is stopped polls once more, if it is one in neighborhoods. -/
theorem Search.prompt (s : Search) (built : Nat) (hstays : Stays (Beat.answers (s.beats built))) :
    Prompt 1 1 (s.drawn built) (s.beats built) := by
  cases s with
  | score => exact Or.inl (by simp [beats])
  | plain rounds stopped =>
      exact (Descent.prompt ⟨rounds, stopped, built⟩).mono (Nat.zero_le 1) (Nat.le_refl 1)
  | neighborhoods rounds stopped =>
      rw [beats, answers_around] at hstays
      refine (chain_prompt ?_ hstays).around .variableNeighborhoodSearch
      intro part hmem _
      obtain ⟨r, -, rfl⟩ := List.mem_map.1 hmem
      exact r.2.prompt.around (.vnsRound r.1)

theorem Trial.prompt (index : Nat) (t : Trial) (hstays : Stays (Beat.answers (t.beats index))) :
    Prompt 1 1 t.drawn (t.beats index) := by
  refine Prompt.around (Prompt.prepend ?_ (by simp)) (.trial index)
  obtain ⟨built, search⟩ := t
  cases hscore : search.isScore with
  | true =>
      -- Stopped behind its construction, the trial only has its cost computed.
      cases search with
      | score =>
          exact (Prompt.stop.append (by simp) .cost).mono (Nat.zero_le 1) (Nat.le_refl 1)
      | _ => exact nomatch hscore
  | false =>
      have hsearch : Stays (Beat.answers (search.beats built)) := by
        rw [beats, answers_around] at hstays
        simpa [hscore, Stays] using hstays
      exact (search.prompt built hsearch).cons (by simp)

/-- **A run that is stopped polls twice more at most, and computes one cost at most.** -/
theorem run_prompt {stopped : Bool} {trials : List Trial}
    (hstays : Stays (Beat.answers (runBeats stopped trials))) :
    Prompt 2 1 (chainEnd 0 (Trial.parts 1 trials)) (runBeats stopped trials) := by
  rw [runBeats, answers_around] at hstays
  refine (chain_prompt ?_ hstays).around .grasp
  intro part hmem hpart
  obtain ⟨t, -, rfl⟩ := List.mem_map.1 hmem
  exact t.1.prompt t.2 hpart

/-! ### The first stop -/

/-- There is only one first stop. -/
theorem first_stop_unique {before before' after after' : List Beat} {drawn drawn' : Nat}
    (h : before ++ .poll true drawn :: after = before' ++ .poll true drawn' :: after')
    (hbefore : true ∉ Beat.answers before) (hbefore' : true ∉ Beat.answers before') :
    drawn = drawn' ∧ after = after' := by
  induction before generalizing before' with
  | nil =>
      cases before' with
      | nil => simpa using h
      | cons beat rest =>
          obtain ⟨rfl, -⟩ := List.cons.inj h
          simp at hbefore'
  | cons beat rest ih =>
      cases before' with
      | nil =>
          obtain ⟨rfl, -⟩ := List.cons.inj h
          simp at hbefore
      | cons beat' rest' =>
          obtain ⟨rfl, hrest⟩ := List.cons.inj h
          refine ih hrest ?_ ?_
          · cases beat <;> simp_all
          · cases beat <;> simp_all

/-- What follows on the first stop in a prompt part. -/
theorem Prompt.windsDown {polls costs drawn drawn' : Nat} {beats before after : List Beat}
    (h : Prompt polls costs drawn' beats) (hbeats : beats = before ++ .poll true drawn :: after)
    (hbefore : true ∉ Beat.answers before) :
    drawn = drawn' ∧ WindsDown polls costs drawn after := by
  rcases h with hcalm | ⟨before', after', hsplit, hbefore', hdown⟩
  · exact absurd (by simp [hbeats]) hcalm
  · obtain ⟨rfl, rfl⟩ := first_stop_unique (hbeats.symm.trans hsplit) hbefore hbefore'
    exact ⟨rfl, hdown⟩

end KCut.Course

namespace KCut.Solver

open Course (Prompt)
open NeighborhoodSearch (Unfinished)

variable {α : Type} [Weight α] [Weight.Ordered α] {l : EdgeList α} {g : Graph α} {c : Config}

/-- **A run that is stopped ends promptly.** Let the caller's condition stay stopped once it
has stopped the run, and look at what comes behind the first poll that does: nothing begins
there but at most one cost phase, so no construction, no round, no phase that moves nodes; at
most two more polls are made; and no random word is drawn any more. -/
theorem stopped_run_ends_promptly (hbuild : l.build = .ok g) (hpos : 0 < g.nodeCount)
    (hword : g.nodeCount < Tally.modulus) (haccepted : c.problemFor? g.nodeCount = .ok none)
    (hk : c.k < 2 ^ 32) (minBatch : Nat) {termination : Option Termination}
    (hstays : (termination.getD .never).StaysStopped) (listeners : Nat) (seed : UInt64) :
    let s : Solver α := ⟨g, c, .random minBatch, termination, listeners⟩
    (∃ fault, s.compute seed = .error fault ∧
      Unfinished c.vnsMaxNeighborhoodOrder c.k fault) ∨
    ∃ report b scope, s.compute seed = .ok report ∧
      s.grasp (s.startScope seed) = .ok (b, scope) ∧
      ∀ before drawn after, report.journal.toList = before ++ .polled true drawn :: after →
        true ∉ Journal.answers before.toArray →
        (∀ task, .began task ∈ Journal.events after.toArray → task = .computeCost) ∧
        (Journal.events after.toArray).count (.began .computeCost) ≤ 1 ∧
        (Journal.answers after.toArray).length ≤ 2 ∧
        (∀ stop later, .polled stop later ∈ after → stop = true ∧ later = drawn) ∧
        scope.stream.position = drawn := by
  intro s
  have hs : s.Suits := suits_of_build hbuild hpos hword haccepted hk minBatch termination listeners
  rcases compute_safe hs seed with ⟨report, hcompute⟩ | hfault
  · refine Or.inr ⟨report, ?_⟩
    obtain ⟨b, scope, stopped, trials, hrun, hran⟩ := compute_ran (s := s) rfl hpos hcompute
    refine ⟨b, scope, hcompute, hrun, fun before drawn after hsplit hbefore => ?_⟩
    have hasked : Course.Stays (Beat.answers (Course.runBeats stopped trials)) := by
      rw [← hran.course_eq, Journal.answers_course]
      exact (hstays.withLimit _).answers hran.asked
    have hcourse : Course.runBeats stopped trials = Journal.course before.toArray ++
        .poll true drawn :: Journal.course after.toArray := by
      rw [← hran.course_eq, Journal.course, hsplit]
      simp [Journal.course, Entry.beat?]
    obtain ⟨hdrawn, hdown⟩ := (Course.run_prompt hasked).windsDown hcourse
      (by rwa [Journal.answers_course])
    rw [← Journal.events_course, ← Journal.answers_course]
    refine ⟨hdown.began_eq, hdown.costs_le, hdown.polls_le, fun stop later hmem => ?_, ?_⟩
    · refine hdown.poll_eq stop later ?_
      exact List.mem_filterMap.2 ⟨_, hmem, rfl⟩
    · rw [← hran.position_eq]
      exact hdrawn.symm
  · exact Or.inl hfault

/-- The undirected triangle, stopped in the first local search: the neighborhood search and
the trials poll once more each, and then the run is over. -/
theorem stopped_triangle_ends_promptly :
    let s : Solver Rat := ⟨(EdgeList.triangle true).toGraph,
      { Config.default with
        iterations := 3
        vnsMaxNeighborhoodOrder := 1
        minCommunitySizes := [2, 1] },
      .random 1, some (.afterPolls 3), 0⟩
    ∃ report b scope, s.compute 7 = .ok report ∧
      report.journal.answers = [false, false, false, true, true, true] ∧
      s.grasp (s.startScope 7) = .ok (b, scope) ∧
      ∀ before drawn after, report.journal.toList = before ++ .polled true drawn :: after →
        true ∉ Journal.answers before.toArray →
        (∀ task, .began task ∈ Journal.events after.toArray → task = .computeCost) ∧
        (Journal.events after.toArray).count (.began .computeCost) ≤ 1 ∧
        scope.stream.position = drawn := by
  intro s
  have hpolls : (s.compute 7).toOption.map (·.journal.answers) =
      some [false, false, false, true, true, true] := by
    decide +kernel
  have hstays : ((some (.afterPolls 3) : Option Termination).getD .never).StaysStopped :=
    .predicate fun i j hle hstop => by
      simp only [decide_eq_false_iff_not, Nat.not_lt] at hstop ⊢
      omega
  rcases stopped_run_ends_promptly (EdgeList.build_triangle true) (c := s.config) (by decide)
    (by decide) (by decide) (by decide) 1 hstays 0 7 with
    ⟨fault, hcompute, -⟩ | ⟨report, b, scope, hcompute, hrun, hprompt⟩
  · rw [hcompute] at hpolls
    exact nomatch hpolls
  · rw [hcompute] at hpolls
    refine ⟨report, b, scope, hcompute, Option.some.inj hpolls, hrun, ?_⟩
    intro before drawn after hsplit hbefore
    obtain ⟨hbegan, hcosts, -, -, hposition⟩ := hprompt before drawn after hsplit hbefore
    exact ⟨hbegan, hcosts, hposition⟩

end KCut.Solver
