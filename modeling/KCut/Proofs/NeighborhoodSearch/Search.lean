import KCut.Proofs.LocalSearch.Converge
import KCut.Proofs.NeighborhoodSearch.Hops

/-!
# KCut.Proofs.NeighborhoodSearch.Search

Neighborhood searches end, and with exact weights they keep their best candidate above all
minimums and scored with the weight of its own cut.

Whatever changes places with the best candidate comes out of a local search and carries its own
score. An improvement sets the order back, but it lowers the rank of the best cost; so the
pair of rank and order falls with every round (`Hop.remaining_lt`), and no search reaches the
bound on its rounds, whatever the weights are. With exact ones the best candidate is scored by
the first round at the latest: only a search that is stopped at its first poll gives the
candidate back as it came (`compute_gives`). What is adopted comes out of a local search, so
without a stop it is stable. And no round makes the best cost worse (`Hops.not_prefers`).
-/

namespace KCut.NeighborhoodSearch

/-! ### The end of a search -/

section

variable {α : Type} [Weight α] [Weight.Bounded α] {vns : NeighborhoodSearch} {ls : LocalSearch α}
  {p p' : Progress α} {perturbed : Bool} {answers : List Bool}

omit [Weight.Bounded α] in
/-- A neighbor carries its own score. -/
theorem Found.cost_eq {c : Candidate α} (h : Found ls p perturbed answers c) :
    c.cost = ls.scoreOf c.assignment := by
  cases h with
  | intro _ _ hdescends => exact hdescends.cost_eq

/-- The number of rounds that a search may still make without an improvement, and
the number of improvements that it may still find. -/
def remaining (vns : NeighborhoodSearch) (ls : LocalSearch α) (p : Progress α) : Nat :=
  ls.rank p.best.cost * vns.maxOrder + (vns.maxOrder - p.order)

omit [Weight.Bounded α] in
theorem remaining_le_roundBound (p : Progress α) :
    vns.remaining ls p ≤ vns.roundBound ls := by
  have hrank : ls.rank p.best.cost ≤ ls.k ^ ls.graph.nodeCount := LocalSearch.rank_le _
  have hmul := Nat.mul_le_mul_right vns.maxOrder hrank
  rw [remaining, roundBound, Nat.pow_eq, Nat.mul_comm vns.maxOrder, Nat.add_mul]
  omega

/-- **With every round fewer remain.** -/
theorem Hop.remaining_lt (h : Matches vns ls) (hhop : Hop vns ls p perturbed answers p')
    (horder : p.order < vns.maxOrder) : vns.remaining ls p' < vns.remaining ls p := by
  cases hhop with
  | @adopted w c _ hfound hbetter =>
      -- An improvement lowers the rank by one at least, which is worth all orders.
      have hfall : ls.rank c.cost < ls.rank p.best.cost := by
        rw [h.objective_eq, hfound.cost_eq] at hbetter
        rw [hfound.cost_eq]
        exact LocalSearch.rank_lt (hfound.sound h.ready).legal hbetter
      have hmul := Nat.mul_le_mul_right vns.maxOrder (Nat.succ_le_of_lt hfall)
      rw [Nat.succ_mul] at hmul
      simp only [remaining]
      omega
  | kept =>
      simp only [remaining]
      omega

theorem Hops.remaining_le (h : Matches vns ls) (hhops : Hops vns ls p answers p') :
    vns.remaining ls p' + p'.outcome.rounds ≤ vns.remaining ls p + p.outcome.rounds := by
  induction hhops with
  | refl p => exact Nat.le_refl _
  | head horder hhop _ ih =>
      have hfewer := hhop.remaining_lt h horder
      have hrounds := hhop.rounds_eq
      omega

/-- **No search reaches the bound on its rounds**: what it may end in, if it has no result, is
two community ids that overflow, or a local search without an end. -/
theorem overflow_or_endless_of_searchFault (h : Matches vns ls) {fault : Fault}
    (hfault : SearchFault vns ls (vns.roundBound ls) p fault) :
    Overflow vns.maxOrder ls.k fault ∨ fault = .boundExceeded ∧ ls.Endless := by
  rcases hfault with ⟨_, ⟨-, hoverflow⟩ | hendless⟩ | ⟨-, answers, p', hhops, horder, hcount⟩
  · exact Or.inl hoverflow
  · exact Or.inr hendless
  · have hremaining := hhops.remaining_le h
    have hbound : vns.remaining ls p ≤ vns.roundBound ls := remaining_le_roundBound p
    -- An order that is left would leave a round.
    have hleft : 0 < vns.remaining ls p' :=
      Nat.lt_of_lt_of_le (Nat.sub_pos_of_lt horder) (Nat.le_add_left _ _)
    omega

end

variable {vns : NeighborhoodSearch} {ls : LocalSearch Rat} {p p' p'' : Progress Rat}
  {perturbed : Bool} {answers more : List Bool} {c : Candidate Rat}

/-- The cost cell of a candidate holds the weight of its cut. -/
def Scored (ls : LocalSearch Rat) (c : Candidate Rat) : Prop :=
  c.cost = .of (ls.graph.cut c.assignment)

/-- A candidate that a search may keep as its best one: legal, counted, above all
minimums, and its cost cell is empty or holds its own cut weight. -/
structure Kept (ls : LocalSearch Rat) (c : Candidate Rat) : Prop where
  sound : c.Sound ls.graph.nodeCount ls.k
  fills : c.assignment.Fills ls.minSizes ls.k
  scored : c.cost = .worst ∨ Scored ls c

/-! ### Neighbors -/

namespace Found

variable (ready : ls.Ready)

include ready

theorem scored (h : Found ls p perturbed answers c) : Scored ls c := by
  rw [Scored, h.cost_eq, LocalSearch.scoreOf_eq_cut ready (h.sound ready).legal]

/-- A neighbor whose search was not stopped is stable. -/
theorem stable (h : Found ls p perturbed answers c) (hrunning : true ∉ answers) :
    ls.Stable c.assignment := by
  cases h with
  | intro _ _ hdescends =>
      rw [LocalSearch.not_mem_answersFor_iff.1 hrunning] at hdescends
      exact hdescends.stable ready

theorem kept (h : Found ls p perturbed answers c) (hp : p.best.assignment.Fills ls.minSizes ls.k) :
    Kept ls c :=
  ⟨h.sound ready, (h.spares ready).fills hp, Or.inr (h.scored ready)⟩

end Found

/-! ### Rounds -/

namespace Hop

/-- **A round leaves the best candidate scored.** -/
theorem kept_and_scored (ready : ls.Ready) (h : Hop vns ls p perturbed answers p')
    (hp : Kept ls p.best) : Kept ls p'.best ∧ Scored ls p'.best := by
  cases h with
  | adopted _ hfound _ => exact ⟨hfound.kept ready hp.fills, hfound.scored ready⟩
  | @kept w c _ hfound hworse =>
      refine ⟨hp, hp.scored.resolve_left fun hcell => ?_⟩
      rw [hcell, hfound.scored ready, vns.objective.prefers_of_worst_rat] at hworse
      exact nomatch hworse

/-- A stable neighbor may change places with the best candidate. -/
theorem keepsStable (ready : ls.Ready) (h : Hop vns ls p perturbed answers p') :
    ls.KeepsStable answers p.best.slot p'.best.slot := by
  cases h with
  | adopted _ hfound _ => exact fun hrunning _ _ => hfound.stable ready hrunning
  | kept => exact .refl _ _

/-- A round does not make the best cost worse. -/
theorem not_prefers (h : Hop vns ls p perturbed answers p') :
    ¬ vns.objective.prefers p.best.cost p'.best.cost = true := by
  cases h with
  | adopted _ _ hbetter => exact vns.objective.prefers_asymm hbetter
  | kept => exact vns.objective.not_prefers_self _

end Hop

/-! ### Chains of rounds -/

namespace Hops

theorem kept (ready : ls.Ready) (h : Hops vns ls p answers p') (hp : Kept ls p.best) :
    Kept ls p'.best := by
  induction h with
  | refl p => exact hp
  | head _ hhop _ ih => exact ih (hhop.kept_and_scored ready hp).1

/-- All rounds but the first one start from a scored candidate. -/
theorem scored (ready : ls.Ready) (h : Hops vns ls p answers p') (hp : Kept ls p.best) :
    answers = [] ∧ p' = p ∨ ∃ more, answers = false :: more ∧ Scored ls p'.best := by
  induction h with
  | refl p => exact Or.inl ⟨rfl, rfl⟩
  | head _ hhop _ ih =>
      obtain ⟨hkept, hscored⟩ := hhop.kept_and_scored ready hp
      rcases ih hkept with ⟨-, hsame⟩ | ⟨more, -, hlater⟩
      · rw [hsame]
        exact Or.inr ⟨_, rfl, hscored⟩
      · exact Or.inr ⟨_, rfl, hlater⟩

theorem keepsStable (ready : ls.Ready) (h : Hops vns ls p answers p') :
    ls.KeepsStable answers p.best.slot p'.best.slot := by
  induction h with
  | refl p => exact .refl _ _
  | head _ hhop _ ih =>
      exact (LocalSearch.KeepsStable.refl [false] _).trans ((hhop.keepsStable ready).trans ih)

/-- **No chain of rounds makes the best cost worse.** -/
theorem not_prefers (h : Hops vns ls p answers p') :
    ¬ vns.objective.prefers p.best.cost p'.best.cost = true := by
  induction h with
  | refl p => exact vns.objective.not_prefers_self _
  | @head p p₁ p₂ _ _ _ hhop _ ih =>
      intro hworse
      rcases vns.objective.prefers_or_prefers hworse p₁.best.cost.comparable_rat with
        hfirst | hrest
      · exact hhop.not_prefers hfirst
      · exact ih hrest

end Hops

/-- Nor does the ending. -/
theorem Ending.not_prefers (hending : Ending vns ls p answers p') :
    ¬ vns.objective.prefers p.best.cost p'.best.cost = true := by
  cases hending with
  | done => exact vns.objective.not_prefers_self _
  | stopped => exact vns.objective.not_prefers_self _
  | stuck _ hhop => exact hhop.not_prefers

/-! ### Searches -/

/-- What a search has made of its best candidate, by the answers to its polls: a
search that is stopped at its first poll gives it back as it came, and every
other one gives a scored candidate. -/
def Outcome (ls : LocalSearch Rat) (start best : Candidate Rat) (polls : List Bool) : Prop :=
  (polls = [true] ∧ best = start) ∨ ∃ more, polls = false :: more ∧ Scored ls best

/-- **With exact weights only two community ids may overflow.** -/
theorem overflow_of_searchFault (h : Matches vns ls) {fault : Fault}
    (hfault : SearchFault vns ls (vns.roundBound ls) p fault) :
    Overflow vns.maxOrder ls.k fault := by
  rcases overflow_or_endless_of_searchFault h hfault with hoverflow | ⟨-, hendless⟩
  · exact hoverflow
  · exact absurd hendless (LocalSearch.not_endless h.ready)

/-- A chain of rounds and its ending as one. -/
theorem Ending.keeps (ready : ls.Ready) (hhops : Hops vns ls p answers p')
    (hending : Ending vns ls p' more p'') (hp : Kept ls p.best) :
    Kept ls p''.best ∧ (p.order < vns.maxOrder → Outcome ls p.best p''.best (answers ++ more)) ∧
      ls.KeepsStable (answers ++ more) p.best.slot p''.best.slot := by
  have hkept := hhops.kept ready hp
  have hstable := hhops.keepsStable ready
  have hscored := hhops.scored ready hp
  cases hending with
  | done horder =>
      rw [List.append_nil]
      refine ⟨hkept, fun hstart => ?_, hstable⟩
      rcases hscored with ⟨-, rfl⟩ | hscored
      · exact absurd hstart horder
      · exact Or.inr hscored
  | stopped _ =>
      refine ⟨hkept, fun _ => ?_, hstable.trans (.refl [true] _)⟩
      rcases hscored with ⟨rfl, rfl⟩ | ⟨rest, rfl, hscored⟩
      · exact Or.inl ⟨rfl, rfl⟩
      · exact Or.inr ⟨_, rfl, hscored⟩
  | stuck _ hhop =>
      obtain ⟨hkept', hscored'⟩ := hhop.kept_and_scored ready hkept
      have hlast := (LocalSearch.KeepsStable.refl [false] _).trans (hhop.keepsStable ready)
      refine ⟨hkept', fun _ => Or.inr ?_, hstable.trans hlast⟩
      rcases hscored with ⟨rfl, -⟩ | ⟨rest, rfl, -⟩
      · exact ⟨_, rfl, hscored'⟩
      · exact ⟨_, rfl, hscored'⟩

/-- **A neighborhood search has a result**, unless two community ids overflow. A
plain local search scores its candidate; a search in neighborhoods does unless its
first poll stops it. -/
theorem compute_gives (h : Matches vns ls) {w : Workspace Rat} (hw : w.Fits ls)
    {neighbor best : Candidate Rat} (hneighbor : Spare ls neighbor) (hbest : Kept ls best)
    (scope : Scope Rat) :
    (vns.compute ls w neighbor best).GivesOr (Overflow vns.maxOrder ls.k) scope fun r scope' =>
      r.2.1.Fits ls ∧ Spare ls r.2.2.1 ∧ Kept ls r.2.2.2 ∧ ∃ polls, scope.Quiet polls scope' ∧
        (if vns.maxOrder = 0 then Scored ls r.2.2.2 else Outcome ls best r.2.2.2 polls) ∧
        ls.KeepsStable polls best.slot r.2.2.2.slot := by
  by_cases hplain : vns.maxOrder = 0
  · rw [compute]
    simp only [if_pos hplain]
    refine ((LocalSearch.compute_descends h.ready hw hbest.sound scope).allow ?_).bind ?_
    · exact fun fault hfault => absurd hfault.2 (LocalSearch.not_endless h.ready)
    intro result scope' hpost
    obtain ⟨outcome, w', c⟩ := result
    obtain ⟨hw', rounds, stopped, hdescends, hquiet⟩ := hpost
    have hsearched := hdescends.searched h.ready hbest.sound
    refine Or.inl (Run.gives_pure.2 ⟨hw', hneighbor, ⟨hsearched.sound,
      (hdescends.spares h.ready).fills hbest.fills, Or.inr hsearched.cost_eq⟩, _, hquiet,
      hsearched.cost_eq, ?_⟩)
    intro hrunning _ _
    rw [LocalSearch.not_mem_answersFor_iff.1 hrunning] at hdescends
    exact hdescends.stable h.ready
  · refine ((compute_hops h hplain hw hneighbor hbest.sound scope).allow
      fun _ => overflow_of_searchFault h).mono ?_
    intro r scope' hpost
    obtain ⟨answers, p, more, p', hhops, hp, hending, rfl, hquiet⟩ := hpost
    obtain ⟨hkept, houtcome, hstable⟩ := hending.keeps h.ready hhops hbest
    have hsafe := hending.safe h hp
    simp only [if_neg hplain]
    exact ⟨hsafe.fits, hsafe.neighbor, hkept, _, hquiet, houtcome (Nat.pos_of_ne_zero hplain),
      hstable⟩

end KCut.NeighborhoodSearch
