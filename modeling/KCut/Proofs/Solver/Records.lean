import KCut.Proofs.Discreet
import KCut.Proofs.Graph.Incidence
import KCut.Proofs.Records
import KCut.Proofs.Solver.Report

/-!
# KCut.Proofs.Solver.Records

The best of the trials, and what a run tells about it.

A trial scores one candidate and lets it compete; a winner takes the best slot and is
written into all records at once, a loser changes nothing but the list of what was
scored (`Decided`). So the best slot, the messages, the log and the counter keep telling
one story (`Books`): that of the strict improvements among the scored candidates. This
holds for all weights whose comparisons are lawful; numbers that cannot be compared are
left out.
-/

namespace KCut.Solver

open Run

variable {α : Type} [Weight α] {s : Solver α} {index : Nat} {b b' : Buffers α}
  {scope scope' : Scope α}

/-! ### The phases of a trial

Only the current slot is written to. -/

omit [Weight α] in
theorem construct_keeps (hdiscreet : s.construction.Discreet)
    (h : s.construct index b scope = .ok (b', scope')) :
    scope.SameRecords scope' ∧ b'.arena.best = b.arena.best := by
  rw [construct] at h
  obtain ⟨r, scope₁, hbuild, hrest⟩ := bind_eq_ok h
  cases hrest
  exact ⟨hdiscreet _ _ _ _ _ _ _ _ hbuild, rfl⟩

theorem score_keeps (h : s.score b scope = .ok (b', scope')) :
    scope.SameRecords scope' ∧ b'.arena.best = b.arena.best := by
  rw [score] at h
  obtain ⟨cost, scope₁, hevaluate, hrest⟩ := bind_eq_ok h
  cases hrest
  exact ⟨s.localSearch.evaluateIn_plain.discreet _ _ _ hevaluate, rfl⟩

theorem improve_keeps (h : s.improve b scope = .ok (b', scope')) :
    scope.SameRecords scope' ∧ b'.arena.best = b.arena.best := by
  rw [improve] at h
  obtain ⟨r, scope₁, hsearch, hrest⟩ := bind_eq_ok h
  cases hrest
  exact ⟨(s.neighborhoodSearch.compute_plain s.localSearch).discreet _ _ _ hsearch, rfl⟩

/-! ### Competitions -/

/-- How the candidate `t` has fared against the best slot. -/
inductive Decided (s : Solver α) (t : ScoredTrial α) (best : Slot α) (scope : Scope α) :
    Slot α → Scope α → Prop
  /-- It takes the best slot and is written into all records. -/
  | won {scope' : Scope α} (hwins : s.config.objective.prefers t.cost best.cost = true)
      (scored_eq : scope'.journal.scoredTrials = scope.journal.scoredTrials ++ [t])
      (messages_eq : scope'.journal.messages = scope.journal.messages ++ [t])
      (newBests_eq : scope'.journal.newBests = scope.journal.newBests ++ [(t.trial, t.cost)])
      (improvements_eq : scope'.statistics.bestImprovements =
        scope.statistics.bestImprovements + 1) :
      Decided s t best scope ⟨t.assignment, t.cost⟩ scope'
  /-- It has been scored, and that is all. -/
  | lost {scope' : Scope α} (hloses : s.config.objective.prefers t.cost best.cost = false)
      (scored_eq : scope'.journal.scoredTrials = scope.journal.scoredTrials ++ [t])
      (messages_eq : scope'.journal.messages = scope.journal.messages)
      (newBests_eq : scope'.journal.newBests = scope.journal.newBests)
      (improvements_eq : scope'.statistics.bestImprovements =
        scope.statistics.bestImprovements) :
      Decided s t best scope best scope'

namespace Decided

variable {t : ScoredTrial α} {best best' : Slot α} {scope₁ : Scope α}

/-- What happened between two records does not matter. -/
theorem after (h : scope.SameRecords scope₁) (hd : Decided s t best scope₁ best' scope') :
    Decided s t best scope best' scope' := by
  cases hd with
  | won hwins hscored hmessages hnewBests himprovements =>
      exact .won hwins (hscored.trans (by rw [h.scored_eq]))
        (hmessages.trans (by rw [h.messages_eq])) (hnewBests.trans (by rw [h.newBests_eq]))
        (himprovements.trans (by rw [h.improvements_eq]))
  | lost hloses hscored hmessages hnewBests himprovements =>
      exact .lost hloses (hscored.trans (by rw [h.scored_eq])) (hmessages.trans h.messages_eq)
        (hnewBests.trans h.newBests_eq) (himprovements.trans h.improvements_eq)

theorem before (hd : Decided s t best scope best' scope₁) (h : scope₁.SameRecords scope') :
    Decided s t best scope best' scope' := by
  cases hd with
  | won hwins hscored hmessages hnewBests himprovements =>
      exact .won hwins (h.scored_eq.trans hscored) (h.messages_eq.trans hmessages)
        (h.newBests_eq.trans hnewBests) (h.improvements_eq.trans himprovements)
  | lost hloses hscored hmessages hnewBests himprovements =>
      exact .lost hloses (h.scored_eq.trans hscored) (h.messages_eq.trans hmessages)
        (h.newBests_eq.trans hnewBests) (h.improvements_eq.trans himprovements)

theorem scored_eq (hd : Decided s t best scope best' scope') :
    scope'.journal.scoredTrials = scope.journal.scoredTrials ++ [t] := by
  cases hd with
  | won _ hscored => exact hscored
  | lost _ hscored => exact hscored

end Decided

theorem compete_decides {improved : Bool}
    (h : s.compete index b scope = .ok ((improved, b'), scope')) :
    Decided s ⟨index, b.arena.current.cost, b.arena.current.assignment⟩ b.arena.best scope
      b'.arena.best scope' := by
  rw [compete] at h
  cases hwins : s.config.objective.prefers b.arena.current.cost b.arena.best.cost with
  | true =>
      rw [Arena.promote_of_better hwins] at h
      cases h
      refine .won hwins ?_ ?_ ?_ rfl <;>
        simp [Journal.scoredTrials, Journal.messages, Journal.newBests, Journal.log]
  | false =>
      rw [Arena.promote_of_not_better hwins] at h
      cases h
      refine .lost hwins ?_ ?_ ?_ rfl <;>
        simp [Journal.scoredTrials, Journal.messages, Journal.newBests, Journal.log]

/-- **What a trial does to the best slot and to the records** is what one competition does
to them. -/
theorem trial_decides (hdiscreet : s.construction.Discreet) {goOn : Bool}
    (h : s.trial index b scope = .ok ((goOn, b'), scope')) :
    ∃ t : ScoredTrial α, t.trial = index ∧
      Decided s t b.arena.best scope b'.arena.best scope' := by
  rw [trial] at h
  obtain ⟨_, scope₁, hbegin, h⟩ := bind_eq_ok h
  obtain ⟨b₁, scope₂, hconstruct, h⟩ := bind_eq_ok h
  obtain ⟨stop, scope₃, hpoll, h⟩ := bind_eq_ok h
  obtain ⟨hsame₂, hbest₂⟩ := construct_keeps hdiscreet hconstruct
  have hsame := ((discreet_begin _ _ _ _ hbegin).trans hsame₂).trans (discreet_poll _ _ _ hpoll)
  cases stop with
  | true =>
      obtain ⟨b₂, scope₄, hscore, h⟩ := bind_eq_ok h
      obtain ⟨⟨improved, b₃⟩, scope₅, hcompete, h⟩ := bind_eq_ok h
      obtain ⟨_, scope₆, hfinish, h⟩ := bind_eq_ok h
      cases h
      obtain ⟨hsame₄, hbest₄⟩ := score_keeps hscore
      have hd := compete_decides hcompete
      rw [hbest₄, hbest₂] at hd
      exact ⟨⟨index, b₂.arena.current.cost, b₂.arena.current.assignment⟩, rfl,
        (hd.after (hsame.trans hsame₄)).before (discreet_finish _ _ _ _ hfinish)⟩
  | false =>
      obtain ⟨b₂, scope₄, himprove, h⟩ := bind_eq_ok h
      obtain ⟨⟨improved, b₃⟩, scope₅, hcompete, h⟩ := bind_eq_ok h
      obtain ⟨_, scope₆, hcount, h⟩ := bind_eq_ok h
      obtain ⟨_, scope₇, hnote, h⟩ := bind_eq_ok h
      obtain ⟨_, scope₈, hfinish, h⟩ := bind_eq_ok h
      cases h
      obtain ⟨hsame₄, hbest₄⟩ := improve_keeps himprove
      have hd := compete_decides hcompete
      rw [hbest₄, hbest₂] at hd
      have hrest := ((discreet_count (by intro _; rfl) _ _ _ hcount).trans
        (discreet_enter (by trivial) _ _ _ hnote)).trans (discreet_finish _ _ _ _ hfinish)
      exact ⟨⟨index, b₂.arena.current.cost, b₂.arena.current.assignment⟩, rfl,
        (hd.after (hsame.trans hsame₄)).before hrest⟩

/-! ### Runs -/

/-- All costs that were scored are numbers. -/
def Numbers (scope : Scope α) : Prop :=
  ∀ t ∈ scope.journal.scoredTrials, t.cost.Comparable

/-- What the best slot holds once these candidates were sent: the last of them. -/
def lastSent (s : Solver α) (sent : List (ScoredTrial α)) : Slot α :=
  match sent.getLast? with
  | none => ⟨.zero s.graph.nodeCount, .worst⟩
  | some t => ⟨t.assignment, t.cost⟩

/-- The costs in the order in which they were scored, behind the cell that has none. -/
def costs (scope : Scope α) : List (Score α) :=
  .worst :: scope.journal.scoredTrials.map (·.cost)

/-- Between two trials, the best slot and all records agree on which of the scored
candidates were best for a while. -/
structure Books (s : Solver α) (best : Slot α) (scope : Scope α) : Prop where
  trials_eq : scope.journal.scoredTrials.map (·.trial) =
    List.range' 1 scope.journal.scoredTrials.length
  messages_eq : scope.journal.messages =
    s.config.objective.records [.worst] scope.journal.scoredTrials
  newBests_eq : scope.journal.newBests = scope.journal.messages.map fun t => (t.trial, t.cost)
  improvements_eq : scope.statistics.bestImprovements = scope.journal.messages.length
  best_eq : best = s.lastSent scope.journal.messages
  /-- The best cost has been scored, unless nothing has. -/
  best_mem : best.cost ∈ costs scope
  unbeaten : ∀ cost ∈ costs scope, ¬ s.config.objective.prefers cost best.cost = true

namespace Books

variable {best best' : Slot α}

theorem sameRecords (h : Books s best scope) (hsame : scope.SameRecords scope') :
    Books s best scope' := by
  refine ⟨?_, ?_, ?_, ?_, ?_, ?_, ?_⟩
  · rw [hsame.scored_eq]
    exact h.trials_eq
  · rw [hsame.messages_eq, hsame.scored_eq]
    exact h.messages_eq
  · rw [hsame.newBests_eq, hsame.messages_eq]
    exact h.newBests_eq
  · rw [hsame.improvements_eq, hsame.messages_eq]
    exact h.improvements_eq
  · rw [hsame.messages_eq]
    exact h.best_eq
  · rw [costs, hsame.scored_eq]
    exact h.best_mem
  · rw [costs, hsame.scored_eq]
    exact h.unbeaten

variable [Weight.Bounded α] {t : ScoredTrial α}

/-- **Better than the best slot is better than everything so far.** -/
theorem prefers_iff (h : Books s best scope) (hnumbers : Numbers scope) (cost : Score α) :
    s.config.objective.prefers cost best.cost = true ↔
      ∀ former ∈ costs scope, s.config.objective.prefers cost former = true := by
  constructor
  · intro hbetter former hformer
    have hnumber : former.Comparable := by
      rcases List.mem_cons.1 hformer with rfl | hscored
      · trivial
      · obtain ⟨t, ht, rfl⟩ := List.mem_map.1 hscored
        exact hnumbers t ht
    exact (s.config.objective.prefers_or_prefers hbetter hnumber).resolve_right
      (h.unbeaten former hformer)
  · intro hbest
    exact hbest _ h.best_mem

/-- **A competition keeps the books.** -/
theorem decide (h : Books s best scope) (hnumbers : Numbers scope)
    (htrial : t.trial = scope.journal.scoredTrials.length + 1)
    (hd : Decided s t best scope best' scope') : Books s best' scope' := by
  have htrials : scope'.journal.scoredTrials.map (·.trial) =
      List.range' 1 scope'.journal.scoredTrials.length := by
    rw [hd.scored_eq, List.map_append, List.length_append, h.trials_eq, List.length_singleton,
      List.range'_concat, List.map_singleton, htrial]
    simp [Nat.add_comm]
  have hcosts : costs scope' = costs scope ++ [t.cost] := by
    rw [costs, costs, hd.scored_eq, List.map_append, List.map_singleton, List.cons_append]
  have hrecords : s.config.objective.records [.worst] scope'.journal.scoredTrials =
      scope.journal.messages ++
        if s.config.objective.prefers t.cost best.cost = true then [t] else [] := by
    rw [hd.scored_eq, Objective.records_concat, ← h.messages_eq]
    congr 1
    exact if_congr (h.prefers_iff hnumbers t.cost).symm rfl rfl
  cases hd with
  | won hwins hscored hmessages hnewBests himprovements =>
      have hall := (h.prefers_iff hnumbers t.cost).1 hwins
      refine ⟨htrials, ?_, ?_, ?_, ?_, ?_, ?_⟩
      · rw [hrecords, if_pos hwins, hmessages]
      · rw [hnewBests, hmessages, h.newBests_eq, List.map_append, List.map_singleton]
      · rw [himprovements, hmessages, h.improvements_eq, List.length_append,
          List.length_singleton]
      · rw [hmessages, lastSent, List.getLast?_concat]
      · rw [hcosts]
        exact List.mem_append_right _ (List.mem_singleton_self _)
      · rw [hcosts]
        intro cost hcost
        rcases List.mem_append.1 hcost with hformer | hnew
        · exact s.config.objective.prefers_asymm (hall cost hformer)
        · rw [List.mem_singleton.1 hnew]
          exact s.config.objective.not_prefers_self t.cost
  | lost hloses hscored hmessages hnewBests himprovements =>
      have hloses' : ¬ s.config.objective.prefers t.cost best.cost = true := by
        rw [hloses]
        exact Bool.false_ne_true
      refine ⟨htrials, ?_, ?_, ?_, ?_, ?_, ?_⟩
      · rw [hrecords, if_neg hloses', hmessages, List.append_nil]
      · rw [hnewBests, hmessages, h.newBests_eq]
      · rw [himprovements, hmessages, h.improvements_eq]
      · rw [hmessages]
        exact h.best_eq
      · rw [hcosts]
        exact List.mem_append_left _ h.best_mem
      · rw [hcosts]
        intro cost hcost
        rcases List.mem_append.1 hcost with hformer | hnew
        · exact h.unbeaten cost hformer
        · rw [List.mem_singleton.1 hnew]
          exact hloses'

omit [Weight.Bounded α]

theorem pairwise_trials (h : Books s best scope) :
    scope.journal.scoredTrials.Pairwise fun t t' => t.trial < t'.trial := by
  rw [← List.pairwise_map (f := ScoredTrial.trial), h.trials_eq]
  exact List.pairwise_lt_range'

/-- Numbers and costs go one way along the messages. -/
theorem pairwise_messages (h : Books s best scope) :
    scope.journal.messages.Pairwise fun t t' =>
      t.trial < t'.trial ∧ s.config.objective.prefers t'.cost t.cost = true := by
  rw [h.messages_eq]
  exact (h.pairwise_trials.sublist Objective.records_sublist).and Objective.pairwise_records

/-- What was sent was better than the candidates of all earlier trials. -/
theorem prefers_earlier (h : Books s best scope) {sent : ScoredTrial α}
    (hsent : sent ∈ scope.journal.messages) (ht : t ∈ scope.journal.scoredTrials)
    (hearlier : t.trial < sent.trial) :
    s.config.objective.prefers sent.cost t.cost = true := by
  rw [h.messages_eq] at hsent
  obtain ⟨before, after, hsplit, hbetter⟩ := Objective.split_of_mem_records hsent
  have hordered := h.pairwise_trials
  rw [hsplit] at ht hordered
  rcases List.mem_append.1 ht with hbefore | hrest
  · exact hbetter _ (List.mem_append_right _ (List.mem_map_of_mem hbefore))
  · rcases List.mem_cons.1 hrest with rfl | hafter
    · exact absurd hearlier (Nat.lt_irrefl _)
    · have hlater := List.rel_of_pairwise_cons (List.pairwise_append.1 hordered).2.1 hafter
      exact absurd hearlier (Nat.lt_asymm hlater)

end Books

variable [Weight.Bounded α]

/-- **Trials keep the books**, as long as they score numbers. -/
theorem trials_keep_books (hdiscreet : s.construction.Discreet) {remaining : Nat}
    (h : s.trials remaining index b scope = .ok (b', scope'))
    (hindex : index = scope.journal.scoredTrials.length + 1)
    (hbooks : Numbers scope → Books s b.arena.best scope) (hnumbers : Numbers scope') :
    Books s b'.arena.best scope' := by
  induction remaining generalizing index b scope with
  | zero =>
      cases h
      exact hbooks hnumbers
  | succ remaining ih =>
      rw [trials] at h
      obtain ⟨stop, scope₁, hpoll, h⟩ := bind_eq_ok h
      have hsame := discreet_poll _ _ _ hpoll
      have hindex₁ : index = scope₁.journal.scoredTrials.length + 1 := by
        rw [hsame.scored_eq]
        exact hindex
      have hbooks₁ : Numbers scope₁ → Books s b.arena.best scope₁ := by
        intro hnumbers₁
        refine (hbooks ?_).sameRecords hsame
        rw [Numbers, ← hsame.scored_eq]
        exact hnumbers₁
      cases stop with
      | true =>
          cases h
          exact hbooks₁ hnumbers
      | false =>
          obtain ⟨⟨goOn, b₂⟩, scope₂, htrial, h⟩ := bind_eq_ok h
          obtain ⟨t, ht, hd⟩ := trial_decides hdiscreet htrial
          have hbooks₂ : Numbers scope₂ → Books s b₂.arena.best scope₂ := by
            intro hnumbers₂
            have hnumbers₁ : Numbers scope₁ := by
              intro t' ht'
              refine hnumbers₂ t' ?_
              rw [hd.scored_eq]
              exact List.mem_append_left _ ht'
            exact (hbooks₁ hnumbers₁).decide hnumbers₁ (ht.trans hindex₁) hd
          cases goOn with
          | true =>
              refine ih h ?_ hbooks₂
              rw [hd.scored_eq, List.length_append, List.length_singleton, hindex₁]
          | false =>
              cases h
              exact hbooks₂ hnumbers

theorem grasp_keeps_books (hdiscreet : s.construction.Discreet)
    (h : s.grasp scope = .ok (b', scope')) (hscored : scope.journal.scoredTrials = [])
    (hmessages : scope.journal.messages = []) (hnewBests : scope.journal.newBests = [])
    (himprovements : scope.statistics.bestImprovements = 0) (hnumbers : Numbers scope') :
    Books s b'.arena.best scope' := by
  rw [grasp] at h
  obtain ⟨_, scope₁, hbegin, h⟩ := bind_eq_ok h
  obtain ⟨b₂, scope₂, htrials, h⟩ := bind_eq_ok h
  obtain ⟨_, scope₃, hfinish, h⟩ := bind_eq_ok h
  cases h
  have hstart : Books s s.buffers.arena.best scope := by
    refine ⟨?_, ?_, ?_, ?_, ?_, ?_, ?_⟩
    · rw [hscored]
      rfl
    · rw [hscored, hmessages]
      rfl
    · rw [hnewBests, hmessages]
      rfl
    · rw [himprovements, hmessages]
      rfl
    · rw [hmessages]
      rfl
    · exact List.mem_cons_self
    · rw [costs, hscored]
      simp
  have hbegun := hstart.sameRecords (discreet_begin _ _ _ _ hbegin)
  have hended := discreet_finish _ _ _ _ hfinish
  refine Books.sameRecords ?_ hended
  refine trials_keep_books hdiscreet htrials ?_ (fun _ => hbegun) ?_
  · rw [(discreet_begin _ _ _ _ hbegin).scored_eq, hscored]
    rfl
  · rw [Numbers, ← hended.scored_eq]
    exact hnumbers

/-- **A report agrees with the books** that its run has kept. -/
theorem compute_keeps_books (hpos : 0 < s.graph.nodeCount) (hdiscreet : s.construction.Discreet)
    {seed : UInt64} {report : Report α} (hcompute : s.compute seed = .ok report)
    (hnumbers : ∀ t ∈ report.journal.scoredTrials, t.cost.Comparable) :
    ∃ best scope, Books s best scope ∧ scope.journal = report.journal ∧
      report.answer = ⟨best.assignment, best.cost, scope.statistics⟩ := by
  obtain ⟨b, scope, hgrasp, hreports⟩ := grasp_of_compute hpos hcompute
  have hlast := scope.sameRecords_push (.noted (.solveEnd b.arena.best.cost
    scope.statistics.trialsCompleted scope.statistics.bestImprovements)) trivial
  rw [hreports.journal_eq, hlast.scored_eq] at hnumbers
  have hbooks := grasp_keeps_books hdiscreet hgrasp rfl rfl rfl rfl hnumbers
  exact ⟨b.arena.best, _, hbooks.sameRecords hlast, hreports.journal_eq.symm, hreports.answer_eq⟩

/-- **The messages of a run are the records among its scored trials.**

Trials are numbered in the order in which they are scored. Sent are those whose cost is
better than none and than every cost before, each with its number, cost and assignment,
so numbers and costs go one way along the messages. The counter and the log agree with
them. The answer is the last message, which is the first trial with the best cost; or all
nodes in community 0 without a cost, if nothing was sent. And no trial changes what the
best slot holds, unless its own candidate is better, takes the slot and is sent.

Nothing is asked of the configuration or of the termination. The construction may be any
that does not score or send candidates by itself, and the costs have to be numbers. -/
theorem compute_sends_records (hpos : 0 < s.graph.nodeCount)
    (hdiscreet : s.construction.Discreet) {seed : UInt64} {report : Report α}
    (hcompute : s.compute seed = .ok report)
    (hnumbers : ∀ t ∈ report.journal.scoredTrials, t.cost.Comparable) :
    let o := s.config.objective
    let scored := report.journal.scoredTrials
    let sent := report.journal.messages
    scored.map (·.trial) = List.range' 1 scored.length ∧
    sent = o.records [.worst] scored ∧
    sent.Pairwise (fun t t' => t.trial < t'.trial ∧ o.prefers t'.cost t.cost = true) ∧
    report.answer.statistics.bestImprovements = sent.length ∧
    report.journal.newBests = sent.map (fun t => (t.trial, t.cost)) ∧
    (match sent.getLast? with
      | none =>
          report.answer.assignment = .zero s.graph.nodeCount ∧ report.answer.cost = .worst
      | some last =>
          report.answer.assignment = last.assignment ∧ report.answer.cost = last.cost ∧
          ∀ t ∈ scored, o.prefers t.cost last.cost = false ∧
            (t.trial < last.trial → o.prefers last.cost t.cost = true)) ∧
    ∀ (index : Nat) (b b' : Buffers α) (scope scope' : Scope α) (goOn : Bool),
      s.trial index b scope = .ok ((goOn, b'), scope') →
      ∃ t : ScoredTrial α, t.trial = index ∧
        scope'.journal.scoredTrials = scope.journal.scoredTrials ++ [t] ∧
        if o.prefers t.cost b.arena.best.cost = true then
          b'.arena.best = ⟨t.assignment, t.cost⟩ ∧
            scope'.journal.messages = scope.journal.messages ++ [t]
        else
          b'.arena.best = b.arena.best ∧ scope'.journal.messages = scope.journal.messages := by
  intro o scored sent
  obtain ⟨best, ⟨_, _, _, _, statistics, _⟩, hbooks, rfl, hanswer⟩ :=
    compute_keeps_books hpos hdiscreet hcompute hnumbers
  refine ⟨hbooks.trials_eq, hbooks.messages_eq, hbooks.pairwise_messages, ?_,
    hbooks.newBests_eq, ?_, ?_⟩
  · rw [hanswer]
    exact hbooks.improvements_eq
  · have hbest : best = s.lastSent sent := hbooks.best_eq
    rw [lastSent] at hbest
    rw [hanswer]
    cases hlast : sent.getLast? with
    | none =>
        rw [hlast] at hbest
        exact ⟨congrArg Slot.assignment hbest, congrArg Slot.cost hbest⟩
    | some last =>
        rw [hlast] at hbest
        refine ⟨congrArg Slot.assignment hbest, congrArg Slot.cost hbest, ?_⟩
        intro t ht
        have hunbeaten := hbooks.unbeaten t.cost
          (List.mem_cons_of_mem _ (List.mem_map_of_mem ht))
        rw [hbest] at hunbeaten
        exact ⟨Bool.eq_false_iff.2 hunbeaten,
          hbooks.prefers_earlier (List.mem_of_getLast? hlast) ht⟩
  · intro index b b' scope scope' goOn htrial
    obtain ⟨t, ht, hd⟩ := trial_decides hdiscreet htrial
    refine ⟨t, ht, hd.scored_eq, ?_⟩
    generalize b'.arena.best = best' at hd ⊢
    cases hd with
    | won hwins _ hmessages => exact (if_pos hwins).mpr ⟨rfl, hmessages⟩
    | lost hloses _ hmessages =>
        rw [if_neg (by rw [hloses]; exact Bool.false_ne_true)]
        exact ⟨rfl, hmessages⟩

/-- Three trials on the undirected triangle from prepared candidates that leave no node to
spare: the second one is better than the first, the third is the first again. -/
theorem records_triangle :
    let s : Solver Rat := ⟨(EdgeList.triangle true).toGraph,
      { Config.default with iterations := 3, minCommunitySizes := [2, 1] },
      .prepared #[#[0, 0, 1], #[1, 0, 0]], none, 0⟩
    ∃ report first second, s.compute 7 = .ok report ∧ report.journal.messages = [first, second] ∧
      first.trial = 1 ∧ first.cost = .of 0 ∧ second.trial = 2 ∧ second.cost = .of 4 ∧
      report.answer.assignment = second.assignment ∧ report.answer.cost = second.cost ∧
      report.answer.statistics.bestImprovements = 2 := by
  intro s
  have hrun : (s.compute 7).toOption.map
      (fun report => report.journal.messages.map fun t => (t.trial, t.cost)) =
        some [(1, .of 0), (2, .of 4)] := by
    decide +kernel
  generalize hcompute : s.compute 7 = outcome at hrun
  cases outcome with
  | error fault => exact nomatch hrun
  | ok report =>
      obtain ⟨-, -, -, hcount, -, hlast, -⟩ := compute_sends_records (s := s) (by decide)
        (Construction.discreet_prepared _) hcompute fun t _ => t.cost.comparable_rat
      obtain ⟨first, rest, hsent, hfirst, hrest⟩ :=
        List.map_eq_cons_iff.1 (Option.some.inj hrun)
      obtain ⟨second, rest, rfl, hsecond, hnil⟩ := List.map_eq_cons_iff.1 hrest
      obtain rfl := List.map_eq_nil_iff.1 hnil
      rw [hsent] at hcount hlast
      obtain ⟨htrial, hcost⟩ := Prod.mk.inj hfirst
      obtain ⟨htrial', hcost'⟩ := Prod.mk.inj hsecond
      obtain ⟨hassignment, hbest, -⟩ := hlast
      exact ⟨report, first, second, rfl, hsent, htrial, hcost, htrial', hcost', hassignment,
        hbest, hcount⟩

end KCut.Solver
