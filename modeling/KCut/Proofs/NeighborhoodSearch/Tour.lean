import Mathlib.Data.List.Range
import KCut.Proofs.Course.Search

/-!
# KCut.Proofs.NeighborhoodSearch.Tour

The rounds of a neighborhood search one after another, as they are run and as the log shows
them.

A `Lap` is what one round shows: its order, the cost of its neighbor, whether that was better,
and whether all perturbations have moved a node. A `Tour` is a whole search: polls that let it
go on, rounds with their laps, and the `Finish`, which is an order at its maximum, a poll that
stops the search or a round without enough nodes to perturb (`search_tours`). What a round
makes of the state is said by `Turn`, and all that concerns orders, counts and costs is an
induction on the chain of turns (`Laps`). Nothing is asked of the buffers or the weights.
-/

namespace KCut

variable {α : Type}

/-! ### Rounds in the log -/

/-- The rounds of neighborhood searches that the log shows: the order, the cost of the
neighbor, and whether it was better. -/
def Journal.neighborhoods (j : Journal α) : List (Nat × Score α × Bool) :=
  j.toList.filterMap fun
    | .noted (.vnsRound order cost improved) => some (order, cost, improved)
    | _ => none

namespace Journal

variable (j : Journal α)

@[simp] theorem neighborhoods_push_task (event : TaskEvent) :
    Journal.neighborhoods (j.push (.task event)) = j.neighborhoods := by
  simp [neighborhoods]

@[simp] theorem neighborhoods_push_polled (stop : Bool) (drawn : Nat) :
    Journal.neighborhoods (j.push (.polled stop drawn)) = j.neighborhoods := by
  simp [neighborhoods]

@[simp] theorem neighborhoods_push_localSearchRound (round swaps : Nat) :
    Journal.neighborhoods (j.push (.noted (.localSearchRound round swaps))) =
      j.neighborhoods := by
  simp [neighborhoods]

@[simp] theorem neighborhoods_push_vnsRound (order : Nat) (cost : Score α) (improved : Bool) :
    Journal.neighborhoods (j.push (.noted (.vnsRound order cost improved))) =
      j.neighborhoods ++ [(order, cost, improved)] := by
  simp [neighborhoods]

@[simp] theorem neighborhoods_push_vnsEnd (rounds improvements : Nat) (stuck : Bool)
    (cost : Score α) :
    Journal.neighborhoods (j.push (.noted (.vnsEnd rounds improvements stuck cost))) =
      j.neighborhoods := by
  simp [neighborhoods]

end Journal

/-- A poll gives the next answer of the condition and enters it. -/
theorem Run.eq_of_poll {s s' : Scope α} {stop : Bool} (h : Run.poll s = .ok (stop, s')) :
    s.termination.poll.1 = stop ∧ s'.termination = s.termination.poll.2 ∧
      s'.journal = s.journal.push (.polled stop s.stream.position) := by
  cases hpoll : s.termination.poll with
  | mk answer termination =>
      rw [Run.poll, hpoll] at h
      cases h
      exact ⟨rfl, rfl, rfl⟩

variable [Weight α]

namespace LocalSearch

variable (ls : LocalSearch α)

theorem round_neighborhoods (order : List Partition) (p : Progress α) (scope : Scope α) :
    (ls.round order p).Ensures scope fun _ scope' =>
      scope'.journal.neighborhoods = scope.journal.neighborhoods := by
  simp only [round, Run.ensures_bind, Run.ensures_begin, Run.ensures_check, Run.ensures_finish,
    Run.ensures_note, Run.ensures_pure]
  simp

theorem converge_neighborhoods (schedule : Schedule) (bound : Nat) (p : Progress α)
    (scope : Scope α) :
    (ls.converge schedule bound p).Ensures scope fun _ scope' =>
      scope'.journal.neighborhoods = scope.journal.neighborhoods := by
  induction bound generalizing p scope with
  | zero =>
      rw [converge]
      split
      · exact Run.ensures_error
      · exact Run.ensures_pure.2 rfl
  | succ bound ih =>
      rw [converge]
      split
      · refine Run.ensures_bind.2 (Run.ensures_poll.2 ?_)
        split
        · simp
        · refine Run.ensures_bind.2 ((round_neighborhoods ls _ p _).mono ?_)
          intro p₁ scope₁ hround
          refine (ih p₁ scope₁).mono fun p₂ scope₂ hrest => ?_
          simp [hrest, hround]
      · exact Run.ensures_pure.2 rfl

/-- A local search logs no neighborhoods. -/
theorem compute_neighborhoods (w : Workspace α) (c : Candidate α) (scope : Scope α) :
    (ls.compute w c).Ensures scope fun _ scope' =>
      scope'.journal.neighborhoods = scope.journal.neighborhoods := by
  rw [compute, computeOn]
  simp only [Run.ensures_bind, Run.ensures_begin]
  refine (converge_neighborhoods ls _ _ _ _).mono fun p scope₁ hconverged => ?_
  simp only [evaluateIn, Run.ensures_bind, Run.ensures_begin, Run.ensures_check,
    Run.ensures_finish, Run.ensures_count, Run.ensures_pure]
  simp [hconverged]

end LocalSearch

namespace NeighborhoodSearch

variable {vns : NeighborhoodSearch} {ls : LocalSearch α}

/-! ### Turns -/

/-- What a round shows. -/
structure Lap (α : Type) where
  order : Nat
  /-- The cost of the neighbor. -/
  cost : Score α
  /-- Whether the neighbor was better than the best candidate. -/
  improved : Bool
  /-- Whether every perturbation of the round has moved a node. -/
  perturbed : Bool

/-- The line of a lap in the log. -/
def Lap.line (lap : Lap α) : Nat × Score α × Bool :=
  (lap.order, lap.cost, lap.improved)

/-- What a round from `p` with the result `r` has shown: a better neighbor sets the order
back, and the cell of the neighbor holds its cost either way. -/
def lap (p : Progress α) (r : Bool × Progress α) : Lap α :=
  ⟨p.order, r.2.neighbor.cost, r.2.order == 0, r.1⟩

/-- What a round makes of the state. -/
structure Turn (vns : NeighborhoodSearch) (p : Progress α) (lap : Lap α) (p' : Progress α) :
    Prop where
  order_eq : lap.order = p.order
  improved_eq : lap.improved = vns.objective.prefers lap.cost p.best.cost
  next_order : p'.order = if lap.improved then 0 else p.order + 1
  rounds_eq : p'.outcome.rounds = p.outcome.rounds + 1
  improvements_eq : p'.outcome.improvements =
    p.outcome.improvements + if lap.improved then 1 else 0
  cost_eq : p'.best.cost = if lap.improved then lap.cost else p.best.cost
  best_eq : lap.improved = false → p'.best = p.best

theorem settle_turn (p : Progress α) (w : Workspace α) (c : Candidate α) (perturbed : Bool) :
    let r := (perturbed, (vns.settle { p with workspace := w, neighbor := c }).2)
    Turn vns p (lap p r) r.2 ∧ r.2.outcome.stuck = p.outcome.stuck := by
  unfold settle
  cases hbetter : vns.objective.prefers c.cost p.best.cost with
  | true => exact ⟨by constructor <;> simp [lap, hbetter], rfl⟩
  | false => exact ⟨by constructor <;> simp [lap, hbetter], rfl⟩

/-- A round logs its lap, and the state turns with it. -/
theorem round_turns (p : Progress α) (scope : Scope α) :
    (vns.round ls p).Ensures scope fun r scope' =>
      (Turn vns p (lap p r) r.2 ∧ r.2.outcome.stuck = p.outcome.stuck) ∧
        scope'.journal.neighborhoods = scope.journal.neighborhoods ++ [(lap p r).line] := by
  rw [round]
  simp only [Run.ensures_bind, Run.ensures_begin, Run.ensures_check]
  intro start _
  refine (vns.perturbMany_silent.only_draws _).mono ?_
  rintro perturbed _ ⟨stream, rfl⟩
  refine (ls.compute_neighborhoods p.workspace perturbed.2 _).mono ?_
  intro searched scope₂ hsearched
  simp only [Run.ensures_count, Run.ensures_note, Run.ensures_finish, Run.ensures_pure]
  refine ⟨settle_turn p searched.2.1 searched.2.2 perturbed.1, ?_⟩
  simp only [Journal.neighborhoods_push_task, Journal.neighborhoods_push_vnsRound, hsearched]
  congr 1
  unfold settle
  cases hbetter : vns.objective.prefers searched.2.2.cost p.best.cost with
  | true => simp [Lap.line, lap]
  | false => simp [Lap.line, lap]

/-- A round leaves a condition that never fires as it is. -/
theorem round_neverFires (p : Progress α) (scope : Scope α) :
    (vns.round ls p).Ensures scope fun _ scope' =>
      scope.termination.NeverFires → scope'.termination.NeverFires := by
  refine (round_went vns ls p scope).mono fun r scope' hpost hnever => ?_
  obtain ⟨d, -, hshows⟩ := hpost
  exact hnever.of_answers (Scope.Went.asked hshows)

/-! ### Laps -/

/-- The laps of rounds that lead from one state to another, each of them of an order below the
maximum. -/
inductive Laps (vns : NeighborhoodSearch) : Progress α → List (Lap α) → Progress α → Prop
  | refl (p : Progress α) : Laps vns p [] p
  | cons {p p₁ p' : Progress α} {lap : Lap α} {laps : List (Lap α)}
      (horder : p.order < vns.maxOrder) (hturn : Turn vns p lap p₁) (hrest : Laps vns p₁ laps p') :
      Laps vns p (lap :: laps) p'

/-- The order after a lap: zero if its neighbor was better, the next one otherwise. -/
def Lap.Before (lap next : Lap α) : Prop :=
  next.order = if lap.improved then 0 else lap.order + 1

/-- The costs of the neighbors that were better. -/
def adoptedCosts (laps : List (Lap α)) : List (Score α) :=
  (laps.filter (·.improved)).map (·.cost)

namespace Laps

variable {p p' : Progress α} {laps : List (Lap α)}

theorem rounds_eq (h : Laps vns p laps p') :
    p'.outcome.rounds = p.outcome.rounds + laps.length := by
  induction h with
  | refl p => rfl
  | cons _ hturn _ ih =>
      rw [ih, hturn.rounds_eq, List.length_cons]
      omega

theorem improvements_eq (h : Laps vns p laps p') :
    p'.outcome.improvements = p.outcome.improvements + laps.countP (·.improved) := by
  induction h with
  | refl p => rfl
  | cons _ hturn _ ih =>
      rw [ih, hturn.improvements_eq, List.countP_cons]
      omega

omit [Weight α] in
theorem length_adoptedCosts (laps : List (Lap α)) :
    (adoptedCosts laps).length = laps.countP (·.improved) := by
  rw [adoptedCosts, List.length_map, List.countP_eq_length_filter]

/-- The first lap has the order that the state asks for. -/
theorem order_head (h : Laps vns p laps p') : ∀ lap ∈ laps.head?, lap.order = p.order := by
  cases h with
  | refl => simp
  | cons _ hturn _ => simp [hturn.order_eq]

/-- **The order is set back by a better neighbor and goes up by one otherwise.** -/
theorem isChain (h : Laps vns p laps p') : laps.IsChain Lap.Before := by
  induction h with
  | refl p => exact List.isChain_nil
  | cons _ hturn hrest ih =>
      refine ih.cons fun next hnext => ?_
      rw [Lap.Before, hrest.order_head next hnext, hturn.next_order, hturn.order_eq]

/-- **Every order is below the maximum.** -/
theorem order_lt (h : Laps vns p laps p') : ∀ lap ∈ laps, lap.order < vns.maxOrder := by
  induction h with
  | refl p => simp
  | cons horder hturn _ ih => simpa [hturn.order_eq, horder] using ih

theorem order_le (h : Laps vns p laps p') (hp : p.order ≤ vns.maxOrder) :
    p'.order ≤ vns.maxOrder := by
  induction h with
  | refl p => exact hp
  | cons horder hturn _ ih =>
      refine ih ?_
      rw [hturn.next_order]
      split
      · exact Nat.zero_le _
      · exact horder

/-- **The last laps** have not improved anything, and their orders go up to the last one from
zero, or from the first order if nothing has been improved at all. -/
theorem exists_tail (h : Laps vns p laps p') :
    ∃ before tail, laps = before ++ tail ∧ (∀ lap ∈ tail, lap.improved = false) ∧
      (tail.map (·.order) = List.range p'.order ∨
        before = [] ∧ p.order ≤ p'.order ∧
          tail.map (·.order) = List.range' p.order (p'.order - p.order)) := by
  induction h with
  | refl p => exact ⟨[], [], rfl, by simp, Or.inr (by simp)⟩
  | @cons p p₁ p' lap laps horder hturn hrest ih =>
      obtain ⟨before, tail, rfl, hidle, horders⟩ := ih
      have hnext := hturn.next_order
      rcases horders with hzero | ⟨rfl, hle, hup⟩
      · exact ⟨lap :: before, tail, rfl, hidle, Or.inl hzero⟩
      cases himproved : lap.improved with
      | true =>
          -- The laps after an improvement start from zero.
          simp only [himproved, if_true] at hnext
          rw [hnext, Nat.sub_zero, ← List.range_eq_range'] at hup
          exact ⟨[lap], tail, rfl, hidle, Or.inl hup⟩
      | false =>
          simp only [himproved, Bool.false_eq_true, if_false] at hnext
          refine ⟨[], lap :: tail, rfl, ?_, Or.inr ⟨rfl, by omega, ?_⟩⟩
          · simpa [himproved] using hidle
          · have hlength : p'.order - p.order = p'.order - p₁.order + 1 := by omega
            rw [List.map_cons, hup, hturn.order_eq, hlength, List.range'_succ, hnext]

/-- **There are few rounds**: fewer than the maximal order between two improvements. -/
theorem rounds_le (h : Laps vns p laps p')
    (hp : p.outcome.rounds ≤ p.outcome.improvements * vns.maxOrder + p.order) :
    p'.outcome.rounds ≤ p'.outcome.improvements * vns.maxOrder + p'.order := by
  induction h with
  | refl p => exact hp
  | @cons p p₁ p' lap laps horder hturn _ ih =>
      refine ih ?_
      rw [hturn.rounds_eq, hturn.improvements_eq, hturn.next_order]
      cases lap.improved with
      | true =>
          simp only [if_true, Nat.succ_mul]
          omega
      | false =>
          simp only [Bool.false_eq_true, if_false, Nat.add_zero]
          omega

/-- **Each adopted cost is better than the one it replaces.** -/
theorem adoptedCosts_isChain (h : Laps vns p laps p') :
    (p.best.cost :: adoptedCosts laps).IsChain
      fun old new => vns.objective.prefers new old = true := by
  induction h with
  | refl p => exact List.isChain_singleton _
  | @cons p p₁ p' lap laps _ hturn _ ih =>
      have hcost := hturn.cost_eq
      have hbetter := hturn.improved_eq
      cases himproved : lap.improved with
      | true =>
          simp only [himproved, if_true] at hcost
          rw [himproved] at hbetter
          rw [hcost] at ih
          simpa [adoptedCosts, himproved, ← hbetter] using ih
      | false =>
          simp only [himproved, Bool.false_eq_true, if_false] at hcost
          rw [hcost] at ih
          simpa [adoptedCosts, himproved] using ih

/-- **The best cost is the one that was adopted last.** -/
theorem best_cost_eq (h : Laps vns p laps p') :
    (p.best.cost :: adoptedCosts laps).getLast? = some p'.best.cost := by
  induction h with
  | refl p => rfl
  | @cons p p₁ p' lap laps _ hturn _ ih =>
      have hcost := hturn.cost_eq
      cases himproved : lap.improved with
      | true =>
          simp only [himproved, if_true] at hcost
          rw [hcost] at ih
          simpa [adoptedCosts, himproved] using ih
      | false =>
          simp only [himproved, Bool.false_eq_true, if_false] at hcost
          rw [hcost] at ih
          simpa [adoptedCosts, himproved] using ih

/-- **Without an improvement the best candidate is what it was.** -/
theorem best_eq (h : Laps vns p laps p') (hnone : laps.countP (·.improved) = 0) :
    p'.best = p.best := by
  induction h with
  | refl p => rfl
  | @cons p p₁ p' lap laps _ hturn _ ih =>
      rw [List.countP_cons] at hnone
      have himproved : lap.improved = false := by
        by_contra himproved
        rw [Bool.not_eq_false] at himproved
        simp [himproved] at hnone
      rw [ih (by omega), hturn.best_eq himproved]

end Laps

/-! ### Tours -/

/-- How a search ends. -/
inductive Finish
  /-- The order has reached its maximum. -/
  | exhausted
  /-- A poll has stopped the search. -/
  | stopped
  /-- The last round has not found enough nodes to perturb. -/
  | stuck
deriving DecidableEq

/-- A search from a state and a scope, with the rounds that were run: each of them after a poll
that let the search go on, and all but the last one with nodes to perturb. -/
inductive Tour (vns : NeighborhoodSearch) (ls : LocalSearch α) :
    Progress α → Scope α → List (Lap α) → Finish → Progress α → Scope α → Prop
  | exhausted {p : Progress α} {s : Scope α} (horder : ¬ p.order < vns.maxOrder) :
      Tour vns ls p s [] .exhausted p s
  | stopped {p : Progress α} {s s' : Scope α} (horder : p.order < vns.maxOrder)
      (hpoll : Run.poll s = .ok (true, s')) : Tour vns ls p s [] .stopped p s'
  | stuck {p p' : Progress α} {s s₁ s₂ : Scope α} (horder : p.order < vns.maxOrder)
      (hpoll : Run.poll s = .ok (false, s₁))
      (hround : vns.round ls p s₁ = .ok ((false, p'), s₂)) :
      Tour vns ls p s [lap p (false, p')] .stuck
        { p' with outcome := { p'.outcome with stuck := true } }
        { s₂ with statistics := s₂.statistics.recordVnsStuck }
  | round {p p₁ p' : Progress α} {s s₁ s₂ s' : Scope α} {laps : List (Lap α)} {finish : Finish}
      (horder : p.order < vns.maxOrder) (hpoll : Run.poll s = .ok (false, s₁))
      (hround : vns.round ls p s₁ = .ok ((true, p₁), s₂))
      (hrest : Tour vns ls p₁ s₂ laps finish p' s') :
      Tour vns ls p s (lap p (true, p₁) :: laps) finish p' s'

/-- **A search that has a result is a tour.** -/
theorem search_tours (bound : Nat) (p : Progress α) (scope : Scope α) :
    (vns.search ls bound p).Ensures scope fun p' scope' =>
      ∃ laps finish, Tour vns ls p scope laps finish p' scope' := by
  induction bound generalizing p scope with
  | zero =>
      rw [search]
      split
      · exact Run.ensures_error
      · next horder => exact Run.ensures_pure.2 ⟨[], .exhausted, .exhausted horder⟩
  | succ bound ih =>
      rw [search]
      split
      · next horder =>
        refine Run.ensures_bind.2 fun stop scope₁ hpoll => ?_
        cases stop with
        | true => exact Run.ensures_pure.2 ⟨[], .stopped, .stopped horder hpoll⟩
        | false =>
            refine Run.ensures_bind.2 fun r scope₂ hround => ?_
            obtain ⟨perturbed, p₁⟩ := r
            cases perturbed with
            | true =>
                refine (ih p₁ scope₂).mono fun p' scope' hrest => ?_
                obtain ⟨laps, finish, htour⟩ := hrest
                exact ⟨_, finish, .round horder hpoll hround htour⟩
            | false =>
                simp only [Bool.false_eq_true, if_false, Run.ensures_bind, Run.ensures_count,
                  Run.ensures_pure]
                exact ⟨_, .stuck, .stuck horder hpoll hround⟩
      · next horder => exact Run.ensures_pure.2 ⟨[], .exhausted, .exhausted horder⟩

namespace Tour

variable {p p' : Progress α} {s s' : Scope α} {laps : List (Lap α)} {finish : Finish}

/-- The state turns with every lap. -/
theorem turns (h : Tour vns ls p s laps finish p' s') : Laps vns p laps p' := by
  induction h with
  | exhausted => exact .refl _
  | stopped => exact .refl _
  | @stuck p p' s s₁ s₂ horder _ hround =>
      obtain ⟨⟨hturn, -⟩, -⟩ := round_turns p s₁ _ _ hround
      -- A turn says nothing of the flag that is set in the end.
      have hlast : Turn vns p (lap p (false, p'))
          { p' with outcome := { p'.outcome with stuck := true } } :=
        ⟨hturn.order_eq, hturn.improved_eq, hturn.next_order, hturn.rounds_eq,
          hturn.improvements_eq, hturn.cost_eq, hturn.best_eq⟩
      exact .cons horder hlast (.refl _)
  | @round p p₁ p' s s₁ s₂ s' laps finish horder _ hround _ ih =>
      exact .cons horder (round_turns p s₁ _ _ hround).1.1 ih

/-- **Every lap is logged**, in the order in which the rounds were run. -/
theorem logged (h : Tour vns ls p s laps finish p' s') :
    s'.journal.neighborhoods = s.journal.neighborhoods ++ laps.map Lap.line := by
  induction h with
  | exhausted => simp
  | stopped _ hpoll => simp [(Run.eq_of_poll hpoll).2.2]
  | @stuck p p' s s₁ s₂ _ hpoll hround =>
      obtain ⟨-, hlogged⟩ := round_turns p s₁ _ _ hround
      simp [hlogged, (Run.eq_of_poll hpoll).2.2]
  | @round p p₁ p' s s₁ s₂ s' laps finish _ hpoll hround _ ih =>
      obtain ⟨-, hlogged⟩ := round_turns p s₁ _ _ hround
      simp [ih, hlogged, (Run.eq_of_poll hpoll).2.2]

/-- **A condition that never fires** stops no search. -/
theorem not_stopped (h : Tour vns ls p s laps finish p' s') (hnever : s.termination.NeverFires) :
    finish ≠ .stopped := by
  induction h with
  | exhausted => exact nofun
  | stopped _ hpoll =>
      have hanswer := (Run.eq_of_poll hpoll).1
      rw [hnever.poll.1] at hanswer
      exact nomatch hanswer
  | stuck => exact nofun
  | @round p p₁ p' s s₁ s₂ s' laps finish _ hpoll hround _ ih =>
      refine ih (round_neverFires p s₁ _ _ hround ?_)
      rw [(Run.eq_of_poll hpoll).2.1]
      exact hnever.poll.2

/-- A search that is neither stopped nor stuck has come to the maximal order. -/
theorem order_of_exhausted (h : Tour vns ls p s laps finish p' s')
    (hfinish : finish = .exhausted) : ¬ p'.order < vns.maxOrder := by
  induction h with
  | exhausted horder => exact horder
  | stopped => cases hfinish
  | stuck => cases hfinish
  | round _ _ _ _ ih => exact ih hfinish

/-- A search is stuck iff the perturbations of its last round have failed. -/
theorem stuck_iff (h : Tour vns ls p s laps finish p' s') :
    finish = .stuck ↔ ∃ last ∈ laps.getLast?, last.perturbed = false := by
  induction h with
  | exhausted => simp
  | stopped => simp
  | stuck => simp [lap]
  | @round p p₁ p' s s₁ s₂ s' laps finish _ _ _ _ ih =>
      rw [ih, List.getLast?_cons]
      cases laps.getLast? with
      | none => simp [lap]
      | some last => simp

theorem outcome_stuck (h : Tour vns ls p s laps finish p' s') (hp : p.outcome.stuck = false) :
    p'.outcome.stuck = true ↔ finish = .stuck := by
  induction h with
  | exhausted => simp [hp]
  | stopped => simp [hp]
  | stuck => simp
  | @round p p₁ p' s s₁ s₂ s' laps finish _ _ hround _ ih =>
      exact ih ((round_turns p s₁ _ _ hround).1.2.trans hp)

end Tour

/-! ### Whole searches -/

/-- The state that a search in neighborhoods starts from. -/
def startOf (w : Workspace α) (neighbor best : Candidate α) : Progress α :=
  ⟨w, best, neighbor, 0, ⟨0, 0, false⟩⟩

/-- The scope that the first round is run in. -/
def enterSearch (scope : Scope α) : Scope α :=
  { scope with journal := scope.journal.push (.task (.began .variableNeighborhoodSearch)) }

/-- **A search in neighborhoods that has a result is a tour**, and all its laps are logged. -/
theorem compute_tours (hpos : vns.maxOrder ≠ 0) (w : Workspace α) (neighbor best : Candidate α)
    (scope : Scope α) :
    (vns.compute ls w neighbor best).Ensures scope fun r scope' => ∃ laps finish p s,
      Tour vns ls (startOf w neighbor best) (enterSearch scope) laps finish p s ∧
      r = (p.outcome, p.workspace, p.neighbor, p.best) ∧
      scope'.journal.neighborhoods = scope.journal.neighborhoods ++ laps.map Lap.line := by
  rw [compute]
  simp only [if_neg hpos, Run.ensures_bind, Run.ensures_begin]
  refine (search_tours _ _ _).mono fun p s hsearched => ?_
  obtain ⟨laps, finish, htour⟩ := hsearched
  simp only [Run.ensures_finish, Run.ensures_note, Run.ensures_pure]
  exact ⟨laps, finish, p, s, htour, rfl, by simp [htour.logged]⟩

end NeighborhoodSearch

end KCut
