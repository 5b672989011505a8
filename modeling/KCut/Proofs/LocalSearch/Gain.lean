import Mathlib.Algebra.Field.Rat
import KCut.Proofs.LocalSearch.Affinity
import KCut.Proofs.LocalSearch.GreedyRound

/-!
# KCut.Proofs.LocalSearch.Gain

A round changes the cut by the gains that its moves were made for.

The affinities are those of the start of the round and grow stale with the first
move. But they grow stale at the neighbors of moved nodes only, and those stay
where they are. So when a node moves, its affinities still are what the table
says, and the cut changes by the gain read off the table (`Balanced.visit`).
-/

namespace KCut.LocalSearch

variable {ls : LocalSearch Rat} {table : Array Rat} {a : Assignment} {t : Tally}
  {s : GreedyState} {done : List Nat} {v : Nat}

/-- The gain of the move that has taken a node of `a` to where it is in `b`. -/
def gainOf (ls : LocalSearch Rat) (table : Array Rat) (a b : Assignment) (v : Nat) : Rat :=
  ls.moveGain table v (a.community v) (b.community v)

/-- The cut has changed by the gains of the moves made since `a`. -/
def GreedyState.Balanced (ls : LocalSearch Rat) (table : Array Rat) (a : Assignment)
    (s : GreedyState) : Prop :=
  ls.graph.cut s.assignment =
    ls.graph.cut a + (s.moved.map (ls.gainOf table a s.assignment)).sum

/-- A node that may move has the affinities that it had at the start. -/
theorem affinity_of_mayMove (since : s.Since ls table a) (hmay : ls.MayMove table s v) (c : Nat) :
    ls.graph.affinity s.assignment v c = ls.graph.affinity a v c :=
  Graph.affinity_congr (fun u _ hlink => since.stays fun hmem => hmay.2.2 u hmem hlink) c

theorem GreedyState.Balanced.visit (ready : ls.Ready) (ha : a.Legal ls.graph.nodeCount ls.k)
    (htable : Tabulates ls table a) (sound : s.Sound ls done) (since : s.Since ls table a)
    (h : s.Balanced ls table a) (hv : v < ls.graph.nodeCount) (hnew : v ∉ done) :
    (ls.greedyVisit table s v).Balanced ls table a := by
  unfold greedyVisit
  split
  · next hmay =>
    obtain ⟨c, -, htarget, hc, -⟩ := target_lt hmay htable.size_eq hv
    have hvmoved : v ∉ s.moved := fun hmem => hnew (sound.moved_done v hmem).1
    have hsize := sound.legal.size_eq
    have hcommunity := Assignment.community_setIfInBounds (hsize ▸ hv) c
    have hcut := Graph.cut_setIfInBounds ready.graph hsize hv c
    -- The affinities of the moving node are not stale.
    rw [affinity_of_mayMove since hmay, affinity_of_mayMove since hmay, since.stays hvmoved,
      ← htable.entry_eq hv (ha.community_lt hv), ← htable.entry_eq hv hc, h] at hcut
    have hgain : ls.gainOf table a (s.assignment.setIfInBounds v c) v =
        ls.entry table v (a.community v) - ls.entry table v c := by
      rw [gainOf, hcommunity, if_pos rfl, moveGain]
    -- Nor do the gains of the moves before change with this one.
    have hothers : s.moved.map (ls.gainOf table a (s.assignment.setIfInBounds v c)) =
        s.moved.map (ls.gainOf table a s.assignment) := by
      refine List.map_congr_left fun u hu => ?_
      have huv : u ≠ v := fun heq => hvmoved (heq ▸ hu)
      rw [gainOf, gainOf, hcommunity, if_neg huv]
    rw [htarget, GreedyState.Balanced, GreedyState.move, hcut, List.map_cons, List.sum_cons, hgain,
      hothers]
    ring
  · exact h

/-- **A greedy pass over the nodes changes the cut by the gains of its moves.** -/
theorem greedyPass_balanced (ready : ls.Ready) (ha : a.Legal ls.graph.nodeCount ls.k)
    (ht : t.Agrees a ls.k) (htable : Tabulates ls table a)
    {nodes : List Nat} (hnodup : nodes.Nodup) (hlt : ∀ v ∈ nodes, v < ls.graph.nodeCount) :
    (ls.greedyPass table nodes ⟨a, t, []⟩).Balanced ls table a := by
  have hkeeps : (ls.greedyPass table nodes ⟨a, t, []⟩).Sound ls nodes ∧
      (ls.greedyPass table nodes ⟨a, t, []⟩).Since ls table a ∧
      (ls.greedyPass table nodes ⟨a, t, []⟩).Balanced ls table a := by
    refine greedyPass_keeps
      (I := fun done s => s.Sound ls done ∧ s.Since ls table a ∧ s.Balanced ls table a)
      ⟨.start ha ht, .start t, by simp [GreedyState.Balanced]⟩ ?_ hnodup hlt
    intro done s v hv hnew hinv
    obtain ⟨sound, since, balanced⟩ := hinv
    exact ⟨sound.visit hv hnew htable.size_eq ready.nodeCount_lt,
      since.visit sound hv hnew htable.size_eq,
      balanced.visit ready ha htable sound since hv hnew⟩
  exact hkeeps.2.2

end KCut.LocalSearch
