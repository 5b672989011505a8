import KCut.Proofs.Abreast
import KCut.Proofs.Graph.Incidence
import KCut.Proofs.Solver.Report
import KCut.Proofs.Termination.ShortCircuit

/-!
# KCut.Proofs.Solver.TimeLimit

A run asks the caller's condition at each of its polls, with a time limit in front or without.

The time limit of a configuration lies ahead (`Config.timeLimit_ne_zero`), so the answers to the
polls of a run are those of the caller's condition (`Solver.compute_polls`). This is the last part
of what is said of composed conditions (`Termination.polls_short_circuit`).
-/

namespace KCut

theorem TimeBudget.pos_of_asLimit {seconds limit : Nat} (h : asLimit seconds = some limit) :
    0 < limit := by
  rw [asLimit] at h
  split at h
  · next hpos => exact Option.some.inj h ▸ hpos
  · exact nomatch h

/-- A configuration has no time limit rather than one of zero. -/
theorem Config.timeLimit_ne_zero (c : Config) : c.timeLimit.map (· * 1000) ≠ some 0 := by
  intro hzero
  obtain ⟨limit, hlimit, hmul⟩ := Option.map_eq_some_iff.1 hzero
  obtain ⟨budget, -, hbudget⟩ := Option.bind_eq_some_iff.1 hlimit
  have hpos := TimeBudget.pos_of_asLimit hbudget
  omega

namespace Solver

variable {α : Type} {s : Solver α} {seed : UInt64} {report : Report α}

theorem callersPart_withLimit (s : Solver α) (t : Termination) :
    s.callersPart (t.withLimit (s.config.timeLimit.map (· * 1000))) = t := by
  unfold callersPart
  cases s.config.timeLimit <;> rfl

variable [Weight α]

/-- The caller's condition is reported as the last poll has left it. -/
theorem termination_eq_of_grasp (hpos : 0 < s.graph.nodeCount) {b : Buffers α} {scope : Scope α}
    (hgrasp : s.grasp (s.startScope seed) = .ok (b, scope)) (h : s.compute seed = .ok report) :
    report.termination = s.callersPart scope.termination := by
  rw [compute_eq hpos, runIn, StateT.run, hgrasp] at h
  cases h
  rfl

theorem grasp_composed (hbuilds : s.Builds) : s.grasp.Composed := by
  rw [grasp]
  refine (Run.Composed.begin _).bind fun _ => ?_
  refine (trials_composed hbuilds _ _ _).bind fun b => ?_
  exact (Run.Composed.finish _).bind fun _ => .pure b

/-- The answers in a report are those of the condition that the run has polled. -/
theorem asked_of_grasp (hbuilds : s.Builds) {b : Buffers α} {scope : Scope α}
    (hgrasp : s.grasp (s.startScope seed) = .ok (b, scope)) (hreports : Reports report b scope) :
    s.condition.Answers report.journal.answers scope.termination := by
  obtain ⟨j, hlater⟩ := (grasp_composed hbuilds).later _ _ _ hgrasp
  have hanswers : report.journal.answers = j.answers := by
    rw [hreports.journal_eq, hlater.journal_eq, Array.push_eq_append, Journal.answers_append,
      Journal.answers_append]
    exact List.append_nil _
  rw [hanswers]
  exact hlater.asked

/-- **Every poll of a run is one of the caller's condition**, whether there is a time limit in
front of it or not. -/
theorem compute_polls (hbuilds : s.Builds) (h : s.compute seed = .ok report) :
    let caller := s.termination.getD .never
    let polls := List.replicate report.journal.answers.length .polled
    report.journal.answers = (caller.polledStates polls).map (fun u => u.poll.1) ∧
      report.termination = caller.afterEvents polls := by
  intro caller polls
  rcases Nat.eq_zero_or_pos s.graph.nodeCount with hnone | hpos
  · -- Nothing is polled on a graph without nodes.
    rw [compute] at h
    dsimp only at h
    rw [if_pos hnone] at h
    cases h
    exact ⟨rfl, rfl⟩
  · obtain ⟨b, scope, hgrasp, hreports⟩ := grasp_of_compute hpos h
    obtain ⟨hanswers, hafter⟩ := (asked_of_grasp hbuilds hgrasp hreports).eq_polled
    have hahead := s.config.timeLimit_ne_zero
    rw [condition, Termination.polledStates_withLimit hahead, List.map_map] at hanswers
    rw [condition, Termination.afterEvents_withLimit hahead] at hafter
    refine ⟨hanswers.trans (List.map_congr_left fun u _ => ?_), ?_⟩
    · rw [Function.comp_apply, Termination.poll_withLimit hahead]
    · rw [termination_eq_of_grasp hpos hgrasp h, hafter, callersPart_withLimit]

end Solver

namespace Termination

/-- **Composed conditions are polled from left to right**, however they are composed.

The leaves are the parts that are not composed. A poll stops the run iff one of them does. It asks
them in order, each of them once, up to and including the first one that stops the run; these are
moved on, and the others stay as they are. So after any events a predicate has been asked at as
many polls as found all leaves to its left running.

A time limit in front of a condition that has been reached stops the run at each poll, and the
condition behind it is not asked. One that lies ahead changes no answer, and the condition behind
it is polled as without it. The latter is what a run with a configured time limit does: its
answers are those of the caller's condition. -/
theorem polls_short_circuit (t : Termination) :
    (∀ leaf ∈ t.leaves, ∀ first second, leaf ≠ .either first second) ∧
    (t.poll.1 = true ↔ ∃ leaf ∈ t.leaves, leaf.poll.1 = true) ∧
    t.pollLogged 0 = (List.range t.asked, t.poll) ∧
    t.poll.2.leaves =
      (t.leaves.take t.asked).map (fun leaf => leaf.poll.2) ++ t.leaves.drop t.asked ∧
    (∀ (events : List Event) (i : Nat) (running : Nat → Bool) (calls : Nat),
      t.leaves[i]? = some (.predicate running calls) →
      (t.afterEvents events).leaves[i]? = some (.predicate running
        (calls + (t.polledStates events).countP fun u =>
          (u.leaves.take i).all fun leaf => !leaf.poll.1))) ∧
    (∀ (limit : Option Nat) (events : List Event), ∃ caller : Termination,
      (t.withLimit limit).afterEvents events = caller.withLimit limit ∧
      (caller.withLimit limit).poll.1 = (limit == some 0 || caller.poll.1) ∧
      (limit = some 0 → caller.calls = t.calls) ∧
      (limit ≠ some 0 → caller = t.afterEvents events)) ∧
    ∀ {α : Type} [Weight α] (s : Solver α), s.Builds → s.termination.getD .never = t →
      ∀ (seed : UInt64) (report : Report α), s.compute seed = .ok report →
        let polls := List.replicate report.journal.answers.length .polled
        report.journal.answers = (t.polledStates polls).map (fun u => u.poll.1) ∧
          report.termination = t.afterEvents polls := by
  refine ⟨fun _ => ne_either_of_mem_leaves, poll_stops_iff t, ?_, leaves_poll t, ?_, fun limit events => ?_, ?_⟩
  · rw [pollLogged_eq, List.range_eq_range']
  · intro events i running calls h
    exact getElem?_leaves_afterEvents h events
  · by_cases hlimit : limit = some 0
    · subst hlimit
      obtain ⟨caller, hafter, hcalls⟩ := afterEvents_withLimit_reached t events
      refine ⟨caller, hafter, ?_, fun _ => hcalls, fun h => absurd rfl h⟩
      rw [poll_withLimit_reached]
      rfl
    · refine ⟨t.afterEvents events, afterEvents_withLimit hlimit t events, ?_,
        fun h => absurd h hlimit, fun _ => rfl⟩
      rw [poll_withLimit hlimit, beq_eq_false_iff_ne.2 hlimit, Bool.false_or]
  · intro α _ s hbuilds hcaller seed report h
    subst hcaller
    exact Solver.compute_polls hbuilds h

/-- A flag, a predicate, a time limit that lies ahead and another predicate, as the caller's
condition of a run with a time limit: the first predicate stops the run at its fourth poll, and the
second one is not asked from then on. Raised in time, the flag spares both of them. -/
theorem polls_short_circuit_triangle :
    let t : Termination :=
      .either (.either (.flag false) (.afterPolls 3)) (.either (.time 5000) (.afterPolls 9))
    let s : Solver Rat := ⟨(EdgeList.triangle true).toGraph,
      { Config.default with
        iterations := 3
        vnsMaxNeighborhoodOrder := 1
        minCommunitySizes := [2, 1]
        timeBudget := some ⟨some 5, none⟩ },
      .random 1, some t, 0⟩
    (∃ report, s.compute 7 = .ok report ∧
      report.journal.answers = [false, false, false, true, true, true] ∧
      report.termination.leaves[1]? = some (.predicate (· < 3) 6) ∧
      report.termination.leaves[3]? = some (.predicate (· < 9) 3)) ∧
    (t.afterEvents [.polled, .set 0 true, .polled]).leaves[1]? = some (.predicate (· < 3) 1) ∧
    ∃ caller : Termination,
      (t.withLimit (some 0)).afterEvents [.polled, .set 0 true] = caller.withLimit (some 0) ∧
      caller.calls = t.calls := by
  intro t s
  obtain ⟨-, -, -, -, hcounts, hlimit, hrun⟩ := polls_short_circuit t
  have hpolls : (s.compute 7).toOption.map (·.journal.answers) =
      some [false, false, false, true, true, true] := by
    decide +kernel
  refine ⟨?_, hcounts [.polled, .set 0 true, .polled] 1 _ 0 rfl, ?_⟩
  · cases hcompute : s.compute 7 with
    | error fault =>
        rw [hcompute] at hpolls
        exact nomatch hpolls
    | ok report =>
        rw [hcompute] at hpolls
        have hanswers : report.journal.answers = [false, false, false, true, true, true] :=
          Option.some.inj hpolls
        obtain ⟨-, hafter⟩ := hrun s (Solver.builds_of_random rfl) rfl 7 report hcompute
        rw [hanswers] at hafter
        refine ⟨report, rfl, hanswers, ?_, ?_⟩
        · rw [hafter]
          exact hcounts _ 1 _ 0 rfl
        · rw [hafter]
          exact hcounts _ 3 _ 0 rfl
  · obtain ⟨caller, hafter, -, hcalls, -⟩ := hlimit (some 0) [.polled, .set 0 true]
    exact ⟨caller, hafter, hcalls rfl⟩

end Termination

end KCut
