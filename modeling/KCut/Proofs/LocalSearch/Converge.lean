import Mathlib.Algebra.Field.Rat
import Mathlib.Data.Fintype.BigOperators
import Mathlib.Data.Fintype.Pi
import KCut.Proofs.LocalSearch.Descent
import KCut.Proofs.LocalSearch.Stable

/-!
# KCut.Proofs.LocalSearch.Converge

A local search ends, whatever its polls answer, and what it reports is the cut of
what it returns.

The number of assignments that are better than a cost (`rank`) falls with every round
that moves a node (`Rounds.rank_le`), so with exact weights a search never reaches the
bound on its rounds (`computeOn_gives`). The rounds may visit the blocks in any order,
each round in another one.
-/

namespace KCut

namespace Objective

variable (o : Objective)

/-- No worse is transitive. -/
theorem not_better_trans {x y z : Rat} (hxy : ¬ o.better x y = true) (hyz : ¬ o.better y z = true) :
    ¬ o.better x z = true := by
  cases o with
  | maximize =>
      simp only [better_maximize, Weight.less_rat, decide_eq_true_eq, not_lt] at *
      exact hxy.trans hyz
  | minimize =>
      simp only [better_minimize, Weight.less_rat, decide_eq_true_eq, not_lt] at *
      exact hyz.trans hxy

end Objective

namespace LocalSearch

/-! ### The number of better assignments -/

def assignmentOf {n k : Nat} (f : Fin n → Fin k) : Assignment :=
  Array.ofFn fun v => (f v : Nat)

theorem exists_assignmentOf {a : Assignment} {n k : Nat} (ha : a.Legal n k) :
    ∃ f : Fin n → Fin k, assignmentOf f = a := by
  refine ⟨fun v => ⟨a.community v, ha.community_lt v.isLt⟩, ?_⟩
  refine Array.ext (by simp [assignmentOf, ha.size_eq]) fun v hv hv' => ?_
  simp [assignmentOf, Assignment.community_eq_getElem hv']

section

variable {α : Type} [Weight α] {ls : LocalSearch α}

/-- The score of an assignment, apart from the run that it is computed in. -/
def scoreOf (ls : LocalSearch α) (a : Assignment) : Score α :=
  match ls.costIn ls.partitions a with
  | .ok cost => .of cost
  | .error _ => .worst

theorem scoreOf_eq {a : Assignment} {cost : α} (hcost : ls.costIn ls.partitions a = .ok cost) :
    ls.scoreOf a = .of cost := by
  rw [scoreOf, hcost]

/-- The number of assignments that are better than the content of a cost cell. -/
def rank (ls : LocalSearch α) (score : Score α) : Nat :=
  ls.objective.countBetter Finset.univ
    (fun f : Fin ls.graph.nodeCount → Fin ls.k => ls.scoreOf (assignmentOf f)) score

theorem rank_le (score : Score α) : ls.rank score ≤ ls.k ^ ls.graph.nodeCount := by
  refine (ls.objective.countBetter_le _ _ _).trans ?_
  simp

/-- **A better assignment leaves fewer that are better still.** -/
theorem rank_lt [Weight.Bounded α] {a : Assignment} (ha : a.Legal ls.graph.nodeCount ls.k)
    {score : Score α} (hbetter : ls.objective.prefers (ls.scoreOf a) score = true) :
    ls.rank (ls.scoreOf a) < ls.rank score := by
  obtain ⟨f, rfl⟩ := exists_assignmentOf ha
  exact ls.objective.countBetter_lt (fun f => ls.scoreOf (assignmentOf f)) (Finset.mem_univ f)
    hbetter

end

variable {ls : LocalSearch Rat}

/-- With exact weights the score of an assignment is the weight of its cut. -/
theorem scoreOf_eq_cut (ready : ls.Ready) {a : Assignment}
    (ha : a.Legal ls.graph.nodeCount ls.k) : ls.scoreOf a = .of (ls.graph.cut a) :=
  scoreOf_eq (costIn_eq ready.graph ha.size_eq (ready.perm_nodes (.refl _)))

theorem rank_lt_pow (ready : ls.Ready) {a : Assignment} (ha : a.Legal ls.graph.nodeCount ls.k) :
    ls.rank (ls.scoreOf a) < ls.k ^ ls.graph.nodeCount := by
  refine Nat.lt_of_lt_of_le (rank_lt ha ?_) (rank_le .worst)
  rw [scoreOf_eq_cut ready ha]
  exact ls.objective.prefers_of_worst_rat _

/-! ### What a round makes of an assignment -/

/-- The assignment `b` is no worse than `a`, and keeps the minimums if `a` does. -/
structure NoWorse (ls : LocalSearch Rat) (a b : Assignment) : Prop where
  not_better : ¬ ls.objective.better (ls.graph.cut a) (ls.graph.cut b) = true
  fills : a.Fills ls.minSizes ls.k → b.Fills ls.minSizes ls.k

theorem NoWorse.refl (a : Assignment) : ls.NoWorse a a :=
  ⟨ls.objective.not_better_self _, id⟩

theorem NoWorse.trans {a b c : Assignment} (hab : ls.NoWorse a b) (hbc : ls.NoWorse b c) :
    ls.NoWorse a c where
  not_better := ls.objective.not_better_trans hab.not_better hbc.not_better
  fills h := hbc.fills (hab.fills h)

theorem RoundOf.noWorse {order : List Partition} {p p' : Progress Rat} (h : RoundOf ls order p p')
    (ready : ls.Ready) : ls.NoWorse p.assignment p'.assignment where
  not_better := by
    cases hchanged : p'.changed with
    | true => exact ls.objective.better_asymm (h.better ready hchanged)
    | false =>
        rw [h.assignment_eq_of_not_changed ready hchanged]
        exact ls.objective.not_better_self _
  fills := (h.spares ready).fills

/-! ### Rounds -/

namespace Rounds

variable {schedule : Schedule} {p p' : Progress Rat}

theorem noWorse (ready : ls.Ready) (h : Rounds ls schedule p p') :
    ls.NoWorse p.assignment p'.assignment := by
  induction h with
  | refl p => exact .refl _
  | head _ hsweep _ ih => exact ((hsweep.roundOf ready).noWorse ready).trans ih

/-- **Rounds that end without a change leave a stable assignment.** -/
theorem stable (ready : ls.Ready) (h : Rounds ls schedule p p') (hstart : p.changed = true)
    (hend : p'.changed = false) : ls.Stable p'.assignment := by
  obtain ⟨p₀, -, hsweep⟩ := h.exists_last hstart hend
  exact (hsweep.roundOf ready).stable ready hend

/-- **Every round with a move lowers the rank**, so there are no more of them than better
assignments. -/
theorem rank_le (ready : ls.Ready) (h : Rounds ls schedule p p')
    (hp : p.assignment.Legal ls.graph.nodeCount ls.k) (hend : p'.changed = true) :
    ls.rank (ls.scoreOf p'.assignment) + p'.rounds ≤
      ls.rank (ls.scoreOf p.assignment) + p.rounds := by
  induction h with
  | refl p => exact Nat.le_refl _
  | @head p p₁ p₂ _ hsweep hrest ih =>
      have hchanged : p₁.changed = true := by
        by_contra hidle
        rw [Bool.not_eq_true] at hidle
        rw [hrest.eq_of_not_changed hidle, hidle] at hend
        exact nomatch hend
      have hround := hsweep.roundOf ready
      have hlegal := (hsweep.sound ready).legal
      have hlower : ls.rank (ls.scoreOf p₁.assignment) < ls.rank (ls.scoreOf p.assignment) := by
        refine rank_lt hlegal ?_
        rw [scoreOf_eq_cut ready hlegal, scoreOf_eq_cut ready hp, Objective.prefers_of_of]
        exact hround.better ready hchanged
      have hrounds := hsweep.rounds_eq
      have hrank := ih hlegal hend
      omega

/-- A search never makes as many rounds as it is allowed. -/
theorem rounds_lt (ready : ls.Ready) (h : Rounds ls schedule p p')
    (hp : p.assignment.Legal ls.graph.nodeCount ls.k) (hstart : p.rounds = 0)
    (hend : p'.changed = true) : p'.rounds < ls.roundBound := by
  have hrank := h.rank_le ready hp hend
  have hfew : ls.rank (ls.scoreOf p.assignment) < ls.roundBound :=
    Nat.lt_of_lt_of_le (rank_lt_pow ready hp) (Nat.le_add_right _ _)
  omega

end Rounds

/-! ### Searches -/

/-- A local search has led from `c` to `c'`. -/
structure Searched (ls : LocalSearch Rat) (c c' : Candidate Rat) : Prop where
  sound : c'.Sound ls.graph.nodeCount ls.k
  noWorse : ls.NoWorse c.assignment c'.assignment
  cost_eq : c'.cost = .of (ls.graph.cut c'.assignment)

section

variable (ready : ls.Ready) {schedule : Schedule}
  (hschedule : ∀ i, (schedule i).Perm ls.partitions)

include ready hschedule

/-- **A search has a result**, which is no worse than its start and is reported with
the weight of its cut. It comes from rounds that are counted in its outcome. -/
theorem computeOn_gives {w : Workspace Rat} (hw : w.Fits ls) {c : Candidate Rat}
    (hc : c.Sound ls.graph.nodeCount ls.k) (scope : Scope Rat) :
    (ls.computeOn schedule w c).Gives scope fun r scope' =>
      r.2.1.Fits ls ∧ ls.Searched c r.2.2 ∧ ∃ p,
        Rounds ls schedule ⟨w, c.assignment, c.tally, true, 0, 0⟩ p ∧
        r.1 = ⟨p.rounds, p.swaps, !p.changed⟩ ∧ r.2.2.assignment = p.assignment ∧
        scope.Quiet (answersFor p.rounds p.changed) scope' := by
  have hp : Progress.Sound ls ⟨w, c.assignment, c.tally, true, 0, 0⟩ := ⟨hw, hc.legal, hc.agrees⟩
  rcases computeOn_rounds ready hschedule hw hc scope with hgives | ⟨fault, -, -, p, hmore⟩
  · refine hgives.mono fun r scope' hpost => ?_
    obtain ⟨p, cost, hrounds, hcost, rfl, hquiet, -⟩ := hpost
    have hsound := hrounds.sound ready hp
    have hcut := costIn_eq ready.graph hsound.legal.size_eq (ready.perm_nodes (hschedule p.rounds))
    obtain rfl : cost = ls.graph.cut p.assignment := Except.ok.inj (hcost.symm.trans hcut)
    exact ⟨hsound.fits, ⟨⟨hsound.legal, hsound.agrees⟩, hrounds.noWorse ready, rfl⟩, p, hrounds,
      rfl, rfl, hquiet⟩
  · obtain ⟨hrounds, hchanged, hcount⟩ := hmore
    exact absurd hcount (Nat.ne_of_lt (hrounds.rounds_lt ready hc.legal rfl hchanged))

end

/-! ### Descents -/

/-- A search reports the score of what it has descended to. -/
theorem Descends.cost_eq {α : Type} [Weight α] {ls : LocalSearch α} {c c' : Candidate α}
    {rounds : Nat} {stopped : Bool} (h : ls.Descends c rounds stopped c') :
    c'.cost = ls.scoreOf c'.assignment := by
  cases h with
  | intro _ _ hcost => exact (scoreOf_eq hcost).symm

/-- **With exact weights every search has an end.** -/
theorem not_endless (ready : ls.Ready) : ¬ ls.Endless := by
  intro hendless
  obtain ⟨w, c, p, hc, hrounds, hchanged, hbound⟩ := hendless
  exact Nat.ne_of_lt (hrounds.rounds_lt ready hc.legal rfl hchanged) hbound

namespace Descends

variable {c c' : Candidate Rat} {rounds : Nat} {stopped : Bool} (ready : ls.Ready)
  (hc : c.Sound ls.graph.nodeCount ls.k)

include ready hc

theorem searched (h : ls.Descends c rounds stopped c') : ls.Searched c c' := by
  have hsound := h.sound ready hc
  cases h with
  | intro _ hrounds hcost =>
      have hcut := costIn_eq ready.graph hsound.legal.size_eq (ready.perm_nodes (.refl _))
      rw [hcut] at hcost
      exact ⟨hsound, hrounds.noWorse ready, congrArg Score.of (Except.ok.inj hcost).symm⟩

omit hc in
/-- Unless it is stopped, a search leaves a stable assignment. -/
theorem stable (h : ls.Descends c rounds false c') : ls.Stable c'.assignment := by
  generalize hend : false = stopped at h
  cases h with
  | intro _ hrounds _ => exact hrounds.stable ready rfl hend.symm

end Descends

/-! ### Gains and costs -/

/-- **Every round changes the cut by the gains it decided on.** Its gains are
differences of the affinities at its start, each of them is better than none, and
so a round with a move makes the cut better. A search hence reports the weight of
a cut that is never worse than the cut it started from. -/
theorem search_changes_cut_by_gains {l : EdgeList Rat} {g : Graph Rat} (hbuild : l.build = .ok g)
    (hword : g.nodeCount < Tally.modulus) {objective : Objective} {k concurrency minBatch : Nat}
    {minSizes : Array Nat} (hmin : minSizes.size = k)
    (hls : ls = .new g objective k minSizes concurrency minBatch) :
    (∀ (p : Progress Rat) (order : List Partition) (scope : Scope Rat), p.Sound ls →
      order.Perm ls.partitions →
      ∃ p' scope' before after, ls.round order p scope = .ok (p', scope') ∧
        g.cutWeight p.assignment = .ok before ∧ g.cutWeight p'.assignment = .ok after ∧
        ls.affinities p.assignment p.workspace.affinities = .ok p'.workspace.affinities ∧
        (∀ v < g.nodeCount, ∀ c < k,
          ls.entry p'.workspace.affinities v c = g.affinity p.assignment v c) ∧
        let moved := (List.range g.nodeCount).filter fun v =>
          p'.assignment.community v ≠ p.assignment.community v
        let gain := fun v => ls.moveGain p'.workspace.affinities v (p.assignment.community v)
          (p'.assignment.community v)
        p'.swaps = p.swaps + moved.length ∧ after = before + (moved.map gain).sum ∧
          (∀ v ∈ moved, objective.better (gain v) 0 = true) ∧
          (moved ≠ [] → objective.better after before = true)) ∧
    ∀ (schedule : Schedule) (w : Workspace Rat) (c : Candidate Rat) (scope : Scope Rat),
      (∀ i, (schedule i).Perm ls.partitions) → w.Fits ls → c.Sound g.nodeCount k →
      ∃ outcome w' c' scope' start cost,
        ls.computeOn schedule w c scope = .ok ((outcome, w', c'), scope') ∧
        g.cutWeight c.assignment = .ok start ∧ c'.cost = .of cost ∧
        g.cutWeight c'.assignment = .ok cost ∧ ¬ objective.better start cost = true := by
  have ready : ls.Ready := by
    rw [hls]
    exact ready_new (EdgeList.wellFormed_of_build hbuild) hword objective hmin concurrency minBatch
  obtain rfl : ls.graph = g := by rw [hls]; rfl
  obtain rfl : ls.k = k := by rw [hls]; rfl
  obtain rfl : ls.objective = objective := by rw [hls]; rfl
  constructor
  · intro p order scope hp horder
    obtain ⟨p', scope', hround, h, -⟩ := round_gives ready horder hp scope
    refine ⟨p', scope', _, _, hround, Graph.cutWeight_eq ready.graph hp.legal.size_eq,
      Graph.cutWeight_eq ready.graph (h.sound ready).legal.size_eq, h.computed,
      fun v hv c hc => h.tabulates.entry_eq hv hc, ?_, h.cut_eq ready, ?_, ?_⟩
    · rw [h.swaps_eq, (h.perm_moved ready).length_eq]
    · intro v hv
      exact h.gain_better ready (of_decide_eq_true (List.mem_filter.1 hv).2)
    · intro hmoved
      exact h.better ready ((h.changed_iff_moved ready).2 hmoved)
  · intro schedule w c scope hschedule hw hc
    obtain ⟨⟨outcome, w', c'⟩, scope', hcompute, -, hsearched, -⟩ :=
      computeOn_gives ready hschedule hw hc scope
    exact ⟨outcome, w', c', scope', _, _, hcompute,
      Graph.cutWeight_eq ready.graph hc.legal.size_eq, hsearched.cost_eq,
      Graph.cutWeight_eq ready.graph hsearched.sound.legal.size_eq, hsearched.noWorse.not_better⟩

/-- The undirected triangle, visited from the last block to the first: a round
from one community, and a search that may not leave it below one node. -/
theorem search_triangle :
    let g := (EdgeList.triangle true).toGraph
    let ls : LocalSearch Rat := .new g .minimize 2 #[1, 0] 3 1
    let c : Candidate Rat := ⟨#[0, 0, 0], #[3, 0], .worst⟩
    (∃ p' scope' after, ls.round ls.partitions.reverse ⟨ls.workspace, c.assignment, c.tally, true, 0, 0⟩
        (.start 3 0 .never) = .ok (p', scope') ∧
      g.cutWeight c.assignment = .ok 0 ∧ g.cutWeight p'.assignment = .ok after ∧
      after = 0 + (((List.range 3).filter fun v =>
        p'.assignment.community v ≠ c.assignment.community v).map fun v =>
          ls.moveGain p'.workspace.affinities v (c.assignment.community v)
            (p'.assignment.community v)).sum) ∧
    ∃ r scope' cost, ls.computeOn (fun _ => ls.partitions.reverse) ls.workspace c
        (.start 3 0 (.afterPolls 1)) = .ok (r, scope') ∧
      r.2.2.cost = .of cost ∧ g.cutWeight r.2.2.assignment = .ok cost ∧
      ¬ Objective.minimize.better 0 cost = true := by
  intro g ls c
  have hc : c.Sound g.nodeCount 2 := ⟨by decide, by decide⟩
  have hw : ls.workspace.Fits ls := ⟨by decide +kernel, by decide +kernel⟩
  have hstart : g.cutWeight c.assignment = .ok 0 := by decide +kernel
  have hperm : ls.partitions.reverse.Perm ls.partitions := List.reverse_perm _
  have h := search_changes_cut_by_gains (EdgeList.build_triangle true) (by decide) (k := 2) rfl
    (Eq.refl ls)
  constructor
  · obtain ⟨p', scope', before, after, hround, hbefore, hafter, -, -, -, hgains, -⟩ :=
      h.1 ⟨ls.workspace, c.assignment, c.tally, true, 0, 0⟩ _ (.start 3 0 .never)
        ⟨hw, hc.legal, hc.agrees⟩ hperm
    obtain rfl : (0 : Rat) = before := Except.ok.inj (hstart.symm.trans hbefore)
    exact ⟨p', scope', after, hround, hstart, hafter, hgains⟩
  · obtain ⟨outcome, w', c', scope', start, cost, hcompute, hbefore, hcost, hafter, hbetter⟩ :=
      h.2 (fun _ => ls.partitions.reverse) ls.workspace c (.start 3 0 (.afterPolls 1))
        (fun _ => hperm) hw hc
    obtain rfl : (0 : Rat) = start := Except.ok.inj (hstart.symm.trans hbefore)
    exact ⟨_, scope', cost, hcompute, hcost, hafter, hbetter⟩

end LocalSearch

end KCut
