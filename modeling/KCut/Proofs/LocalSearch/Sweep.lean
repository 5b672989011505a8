import KCut.LocalSearch.Converge
import KCut.Proofs.LocalSearch.Affinity
import KCut.Proofs.LocalSearch.GreedyRound
import KCut.Proofs.Run

/-!
# KCut.Proofs.LocalSearch.Sweep

One round of a local search, whatever the weights are.

`Sweep` describes a round apart from the run that it takes place in: the table is
that of the assignment at the start, and the moves are those of a greedy pass. Which
nodes a pass moves is a matter of comparisons, so nothing here depends on what the
weights add up to. A round without a move has looked at the assignment that it
leaves behind and found no node in it that may move: that assignment is `Settled`
(`Sweep.settled_of_not_changed`).
-/

namespace KCut

variable {α : Type}

/-- The buffers have the sizes that a search works with. -/
structure Workspace.Fits (w : Workspace α) (ls : LocalSearch α) : Prop where
  size_affinities : w.affinities.size = ls.graph.nodeCount * ls.k
  size_marks : w.marks.size = ls.graph.nodeCount

/-! ### Rounds in the log -/

/-- The rounds that the log shows: the number of nodes that each has moved, and its own
number. -/
def Journal.rounds (j : Journal α) : List (Nat × Nat) :=
  j.toList.filterMap fun
    | .noted (.localSearchRound round moved) => some (moved, round)
    | _ => none

@[simp] theorem Journal.rounds_push_task (j : Journal α) (event : TaskEvent) :
    Journal.rounds (j.push (.task event)) = j.rounds := by
  simp [rounds]

@[simp] theorem Journal.rounds_push_polled (j : Journal α) (stop : Bool) (drawn : Nat) :
    Journal.rounds (j.push (.polled stop drawn)) = j.rounds := by
  simp [rounds]

@[simp] theorem Journal.rounds_push_round (j : Journal α) (round moved : Nat) :
    Journal.rounds (j.push (.noted (.localSearchRound round moved))) =
      j.rounds ++ [(moved, round)] := by
  simp [rounds]

namespace LocalSearch

/-- Between two rounds the assignment is legal, the tally agrees with it and the
buffers fit. -/
structure Progress.Sound (ls : LocalSearch α) (p : Progress α) : Prop where
  fits : p.workspace.Fits ls
  legal : p.assignment.Legal ls.graph.nodeCount ls.k
  agrees : p.tally.Agrees p.assignment ls.k

variable [Weight α] {ls : LocalSearch α} {order : List Partition} {p p' : Progress α}

/-- By the gains of a table, no move of one node is better than none, unless its own
community has no node to spare. -/
def Settled (ls : LocalSearch α) (table : Array α) (a : Assignment) : Prop :=
  ∀ v < ls.graph.nodeCount, ∀ c < ls.k, c ≠ a.community v →
    ls.objective.better (ls.moveGain table v (a.community v) c) 0 = true →
      a.count (a.community v) ≤ ls.minSizes.getD (a.community v) 0

/-- An assignment is settled iff no node may be the first one to move. -/
theorem settled_iff {table : Array α} {a : Assignment} {t : Tally}
    (ha : a.Legal ls.graph.nodeCount ls.k) (ht : t.Agrees a ls.k) :
    ls.Settled table a ↔ ∀ v < ls.graph.nodeCount, ¬ ls.MayMove table ⟨a, t, []⟩ v := by
  have sound : GreedyState.Sound ls [] ⟨a, t, []⟩ := .start ha ht
  constructor
  · intro hsettled v hv hmay
    obtain ⟨⟨c, hc, hne, hbetter⟩, hspare, -⟩ := hmay
    rw [sound.tally_getD hv] at hspare
    exact Nat.not_le_of_lt hspare (hsettled v hv c hc hne hbetter)
  · intro hnone v hv c hc hne hbetter
    by_contra hspare
    refine hnone v hv ⟨⟨c, hc, hne, hbetter⟩, ?_, by simp⟩
    rw [sound.tally_getD hv]
    exact Nat.lt_of_not_le hspare

/-- The greedy pass of a round. -/
def passOf (ls : LocalSearch α) (order : List Partition) (table : Array α) (p : Progress α) :
    GreedyState :=
  ls.greedyPass table (order.flatMap Partition.nodes) ⟨p.assignment, p.tally, []⟩

/-- The state `p'` is `p` one round later. -/
structure Sweep (ls : LocalSearch α) (order : List Partition) (p p' : Progress α) : Prop where
  perm_order : order.Perm ls.partitions
  start : p.Sound ls
  computed : ls.affinities p.assignment p.workspace.affinities = .ok p'.workspace.affinities
  size_table : p'.workspace.affinities.size = ls.graph.nodeCount * ls.k
  size_marks : p'.workspace.marks.size = ls.graph.nodeCount
  assignment_eq : p'.assignment = (ls.passOf order p'.workspace.affinities p).assignment
  tally_eq : p'.tally = (ls.passOf order p'.workspace.affinities p).tally
  changed_eq : p'.changed = !(ls.passOf order p'.workspace.affinities p).moved.isEmpty
  rounds_eq : p'.rounds = p.rounds + 1
  swaps_eq : p'.swaps = p.swaps + (ls.passOf order p'.workspace.affinities p).moved.length

variable [Weight.Ordered α]

/-- **A round has a result.** It neither polls nor scores a trial, and the log shows how
many nodes it has moved. -/
theorem round_sweeps (ready : ls.Ready) (horder : order.Perm ls.partitions) (hp : p.Sound ls)
    (scope : Scope α) :
    (ls.round order p).Gives scope fun p' scope' =>
      Sweep ls order p p' ∧ scope.Quiet [] scope' ∧ scope'.journal.rounds =
        scope.journal.rounds ++
          [((ls.passOf order p'.workspace.affinities p).moved.length, p'.rounds)] := by
  obtain ⟨table, htable, hsize, -⟩ := affinities_rows ready hp.legal hp.fits.size_affinities
  obtain ⟨marks, hreset, hmarks, huntouched⟩ := resetMarks_eq ready hp.fits.size_marks
  obtain ⟨s, hswap, hfollows⟩ := visits_refine ready hsize hp.legal hp.agrees
    (ready.nodup_nodes horder) (ready.nodes_lt horder) (.start hmarks huntouched)
  rw [← swapIn_eq_foldlM] at hswap
  have hmoved : s.moved = (ls.passOf order table p).moved.length := hfollows.moved_eq
  simp only [LocalSearch.round, Run.gives_bind, Run.gives_begin, Run.gives_finish, Run.gives_note,
    Run.gives_check htable, Run.gives_check hreset, Run.gives_check hswap, Run.gives_pure]
  refine ⟨⟨horder, hp, htable, hsize, hfollows.size_marks, hfollows.assignment_eq,
    hfollows.tally_eq, hfollows.changed_eq, rfl, ?_⟩, ?_, ?_⟩
  · rw [hmoved]
  · exact ((((Scope.Quiet.refl scope).task _).task _).task _).task _ |>.noted _
  · simp [hmoved]

namespace Sweep

section

omit [Weight.Ordered α]

variable (h : Sweep ls order p p')

include h

theorem changed_iff :
    p'.changed = true ↔ (ls.passOf order p'.workspace.affinities p).moved ≠ [] := by
  rw [h.changed_eq, Bool.not_eq_true', List.isEmpty_eq_false_iff]

theorem moved_eq_nil (hchanged : p'.changed = false) :
    (ls.passOf order p'.workspace.affinities p).moved = [] := by
  by_contra hne
  rw [h.changed_iff.2 hne] at hchanged
  exact nomatch hchanged

end

variable (ready : ls.Ready) (h : Sweep ls order p p')

include ready h

theorem pass_sound :
    (ls.passOf order p'.workspace.affinities p).Sound ls (order.flatMap Partition.nodes) ∧
      (ls.passOf order p'.workspace.affinities p).Since ls p'.workspace.affinities p.assignment :=
  greedyPass_sound ready h.size_table h.start.legal h.start.agrees
    (ready.nodup_nodes h.perm_order) (ready.nodes_lt h.perm_order)

/-- **A round keeps the state sound.** -/
theorem sound : p'.Sound ls where
  fits := ⟨h.size_table, h.size_marks⟩
  legal := h.assignment_eq ▸ (h.pass_sound ready).1.legal
  agrees := by
    rw [h.tally_eq, h.assignment_eq]
    exact (h.pass_sound ready).1.agrees

/-- A round takes no node from a community that is not above its minimum. -/
theorem spares : Assignment.Spares ls.minSizes ls.k p.assignment p'.assignment :=
  h.assignment_eq ▸ greedyPass_spares ready h.size_table h.start.legal h.start.agrees
    (ready.nodup_nodes h.perm_order) (ready.nodes_lt h.perm_order)

/-- The nodes that a round has moved. -/
theorem mem_moved_iff (v : Nat) :
    v ∈ (ls.passOf order p'.workspace.affinities p).moved ↔
      p'.assignment.community v ≠ p.assignment.community v := by
  rw [h.assignment_eq]
  exact (h.pass_sound ready).2.mem_moved_iff

theorem perm_moved :
    (ls.passOf order p'.workspace.affinities p).moved.Perm ((List.range ls.graph.nodeCount).filter
      fun v => p'.assignment.community v ≠ p.assignment.community v) := by
  obtain ⟨sound, -⟩ := h.pass_sound ready
  rw [List.perm_ext_iff_of_nodup sound.nodup (List.nodup_range.filter _)]
  intro v
  rw [List.mem_filter, List.mem_range, decide_eq_true_eq,
    h.mem_moved_iff ready v]
  refine ⟨fun hne => ⟨?_, hne⟩, fun hne => hne.2⟩
  exact (sound.moved_done v ((h.mem_moved_iff ready v).2 hne)).2

theorem changed_iff_moved :
    p'.changed = true ↔ ((List.range ls.graph.nodeCount).filter
      fun v => p'.assignment.community v ≠ p.assignment.community v) ≠ [] := by
  have hlength := (h.perm_moved ready).length_eq
  rw [h.changed_iff, ← List.length_pos_iff, ← List.length_pos_iff, hlength]

/-- A round without a move leaves the assignment as it is. -/
theorem assignment_eq_of_not_changed (hchanged : p'.changed = false) :
    p'.assignment = p.assignment := by
  refine Assignment.ext_community ?_ fun v _ => ?_
  · rw [(h.sound ready).legal.size_eq, h.start.legal.size_eq]
  · by_contra hne
    have hmem := (h.mem_moved_iff ready v).2 hne
    rw [h.moved_eq_nil hchanged] at hmem
    exact absurd hmem List.not_mem_nil

/-- **A round without a move** leaves an assignment that is settled by its table. -/
theorem settled_of_not_changed (hchanged : p'.changed = false) :
    ls.Settled p'.workspace.affinities p'.assignment := by
  rw [h.assignment_eq_of_not_changed ready hchanged, settled_iff h.start.legal h.start.agrees]
  intro v hv
  have hvisited : v ∈ order.flatMap Partition.nodes :=
    (ready.perm_nodes h.perm_order).mem_iff.2 (List.mem_range.2 hv)
  exact not_mayMove_of_moved_eq_nil (h.moved_eq_nil hchanged) v hvisited

omit [Weight.Ordered α] in
/-- A round that starts from an assignment settled by its table moves nothing. -/
theorem moved_eq_nil_of_settled (hsettled : ls.Settled p'.workspace.affinities p.assignment) :
    (ls.passOf order p'.workspace.affinities p).moved = [] := by
  rw [settled_iff h.start.legal h.start.agrees] at hsettled
  rw [passOf, greedyPass_eq_self fun v hv => hsettled v (ready.nodes_lt h.perm_order v hv)]

end Sweep

end LocalSearch

end KCut
