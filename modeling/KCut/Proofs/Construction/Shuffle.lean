import Mathlib.Data.List.Perm.Subperm
import Mathlib.Data.Set.Function
import KCut.Proofs.Construction.Reserve

/-!
# KCut.Proofs.Construction.Shuffle

The reservation is an unbiased choice.

Which nodes are reserved, and in which order, is decided by the picked positions alone
(`Reservation.picked`). Each way to choose so many different nodes, one after another, comes
from one sequence of picks and from no other: the first node tells where the first pick fell,
and what is left after it is a permutation of the other free nodes (`perm_drop_swap`).
-/

namespace KCut.Reservation

variable {nodes : Array Nat} {first pick : Nat} {picks : List Nat}

theorem length_picked (nodes : Array Nat) (first : Nat) (picks : List Nat) :
    (picked nodes first picks).length = picks.length := by
  induction picks generalizing nodes first with
  | nil => rfl
  | cons pick rest ih => rw [picked, List.length_cons, List.length_cons, ih]

/-- Later picks do not change what earlier ones have taken. -/
theorem picked_take (nodes : Array Nat) (first : Nat) (picks : List Nat) (m : Nat) :
    picked nodes first (picks.take m) = (picked nodes first picks).take m := by
  induction picks generalizing nodes first m with
  | nil => simp [picked]
  | cons pick rest ih =>
      cases m with
      | zero => rfl
      | succ m => rw [List.take_succ_cons, picked, picked, List.take_succ_cons, ih]

/-- The picked node is no longer free, and the others still are. -/
theorem perm_drop_swap (hpick : first ≤ pick) (hlt : pick < nodes.size) :
    (nodes.toList.drop first).Perm
      (nodes[pick] :: (nodes.swapIfInBounds first pick).toList.drop (first + 1)) := by
  have hperm := (perm_swap hpick hlt).symm
  rw [← List.take_append_drop (first + 1) (nodes.swapIfInBounds first pick).toList,
    take_swap hpick hlt, List.append_assoc] at hperm
  conv at hperm => lhs; rw [← List.take_append_drop first nodes.toList]
  exact (List.perm_append_left_iff _).1 hperm

/-- The picked nodes are free ones, each of them once. -/
theorem subperm_picked (hpicks : PicksFrom nodes.size first picks) :
    (picked nodes first picks).Subperm (nodes.toList.drop first) := by
  induction picks generalizing nodes first with
  | nil => exact List.nil_subperm
  | cons pick rest ih =>
      obtain ⟨⟨hpick, hlt⟩, hrest⟩ := picksFrom_cons.1 hpicks
      rw [← Array.size_swapIfInBounds (i := first) (j := pick)] at hrest
      have htail := ih hrest
      rw [picked, ← Array.getElem_eq_getD 0 (h := hlt)]
      exact ((List.subperm_cons _).2 htail).trans (perm_drop_swap hpick hlt).symm.subperm

/-- No two sequences of picks take the same nodes in the same order. -/
theorem picked_injective (hnodup : nodes.toList.Nodup) {picks' : List Nat}
    (hpicks : PicksFrom nodes.size first picks) (hpicks' : PicksFrom nodes.size first picks')
    (h : picked nodes first picks = picked nodes first picks') : picks = picks' := by
  induction picks generalizing nodes first picks' with
  | nil =>
      have hlength := congrArg List.length h
      rw [length_picked, length_picked] at hlength
      exact (List.length_eq_zero_iff.1 hlength.symm).symm
  | cons pick rest ih =>
      cases picks' with
      | nil => exact nomatch h
      | cons pick' rest' =>
          obtain ⟨⟨hpick, hlt⟩, hrest⟩ := picksFrom_cons.1 hpicks
          obtain ⟨⟨-, hlt'⟩, hrest'⟩ := picksFrom_cons.1 hpicks'
          rw [picked, picked, List.cons.injEq] at h
          obtain ⟨hnode, htail⟩ := h
          -- All nodes are different, so the first one tells where its pick fell.
          have hsame : pick = pick' := by
            rw [← Array.getElem_eq_getD 0 (h := hlt), ← Array.getElem_eq_getD 0 (h := hlt'),
              ← Array.getElem_toList, ← Array.getElem_toList] at hnode
            exact hnodup.getElem_inj_iff.1 hnode
          subst hsame
          rw [ih ((perm_swap hpick hlt).nodup_iff.2 hnodup)
            (by rwa [Array.size_swapIfInBounds]) (by rwa [Array.size_swapIfInBounds]) htail]

/-- Any different free nodes can be picked, in any order. -/
theorem exists_picked {chosen : List Nat} (hnodup : chosen.Nodup)
    (hfree : ∀ v ∈ chosen, v ∈ nodes.toList.drop first) :
    ∃ picks, PicksFrom nodes.size first picks ∧ picked nodes first picks = chosen := by
  induction chosen generalizing nodes first with
  | nil => exact ⟨[], picksFrom_nil _ _, rfl⟩
  | cons v rest ih =>
      obtain ⟨hnew, hrest⟩ := List.nodup_cons.1 hnodup
      obtain ⟨i, hi, hv⟩ := List.getElem_of_mem (hfree v List.mem_cons_self)
      have hlt : first + i < nodes.size := by
        rw [List.length_drop, Array.length_toList] at hi
        omega
      rw [List.getElem_drop, Array.getElem_toList] at hv
      have hperm := perm_drop_swap (Nat.le_add_right first i) hlt
      have hlater : ∀ u ∈ rest,
          u ∈ (nodes.swapIfInBounds first (first + i)).toList.drop (first + 1) := by
        intro u hu
        rcases List.mem_cons.1 (hperm.mem_iff.1 (hfree u (List.mem_cons_of_mem _ hu))) with
          rfl | hmem
        · exact absurd (hv ▸ hu) hnew
        · exact hmem
      obtain ⟨picks, hpicks, hpicked⟩ := ih hrest hlater
      rw [Array.size_swapIfInBounds] at hpicks
      refine ⟨(first + i) :: picks,
        picksFrom_cons.2 ⟨⟨Nat.le_add_right _ _, hlt⟩, hpicks⟩, ?_⟩
      rw [picked, hpicked, ← Array.getElem_eq_getD 0 (h := hlt), hv]

/-- **Sequences of picks and ordered choices of different nodes correspond to each other.** -/
theorem bijOn_picked (n count : Nat) :
    Set.BijOn (picked (Array.range n) 0)
      {picks | picks.length = count ∧ PicksFrom n 0 picks}
      {chosen | chosen.length = count ∧ chosen.Nodup ∧ ∀ v ∈ chosen, v < n} := by
  have hsize : (Array.range n).size = n := Array.size_range
  have hnodup : (Array.range n).toList.Nodup := by
    rw [Array.toList_range]
    exact List.nodup_range
  refine ⟨?_, ?_, ?_⟩
  · intro picks hpicks
    obtain ⟨hlength, hpicks⟩ := hpicks
    have hsub : (picked (Array.range n) 0 picks).Subperm ((Array.range n).toList.drop 0) :=
      subperm_picked (hsize.symm ▸ hpicks)
    refine ⟨(length_picked _ _ _).trans hlength, ?_, fun v hv => by simpa using hsub.subset hv⟩
    obtain ⟨front, hperm, hsublist⟩ := hsub
    exact hperm.nodup_iff.1 (hnodup.sublist hsublist)
  · intro picks hpicks picks' hpicks' h
    exact picked_injective hnodup (hsize.symm ▸ hpicks.2) (hsize.symm ▸ hpicks'.2) h
  · intro chosen hchosen
    obtain ⟨hlength, hdifferent, hlt⟩ := hchosen
    have hfree : ∀ v ∈ chosen, v ∈ (Array.range n).toList.drop 0 := by simpa using hlt
    obtain ⟨picks, hpicks, rfl⟩ := exists_picked hdifferent hfree
    exact ⟨picks, ⟨(length_picked _ _ _).symm.trans hlength, hsize ▸ hpicks⟩, rfl⟩

theorem PicksFrom.take {n : Nat} (h : PicksFrom n first picks) (m : Nat) :
    PicksFrom n first (picks.take m) := by
  intro i hi
  rw [List.length_take] at hi
  rw [List.getElem_take]
  exact h i (by omega)

/-- **After each turn the node list is a permutation** with the nodes picked so far in front. -/
theorem serve_start {n k : Nat} {a : Assignment} (ha : a.size = n) {colors : List Nat}
    (hcolors : ∀ c ∈ colors, c < k) (hlength : picks.length = colors.length)
    (hpicks : PicksFrom n 0 picks) {i : Nat} (hi : i ≤ colors.length) :
    ∃ r, serve ⟨Array.range n, 0, a⟩ ((colors.zip picks).take i) = .ok r ∧
      r.nodes.toList.Perm (List.range n) ∧ r.reserved = i ∧
      r.taken = (picked (Array.range n) 0 picks).take i := by
  have hsnd : ((colors.zip picks).take i).map Prod.snd = picks.take i := by
    rw [List.map_take, List.map_snd_zip hlength.le]
  have hfree : PicksFrom n 0 (((colors.zip picks).take i).map Prod.snd) := hsnd ▸ hpicks.take i
  obtain ⟨r, hserve, hsound, hreserved, htaken, -⟩ := (sound_start (k := k) ha).serve hfree
    fun turn hturn => hcolors _ (List.of_mem_zip (List.mem_of_mem_take hturn)).1
  refine ⟨r, hserve, hsound.perm, ?_, ?_⟩
  · rw [hreserved, Nat.zero_add, List.length_take, List.length_zip, hlength, Nat.min_self,
      Nat.min_eq_left hi]
  · rw [htaken, hsnd, picked_take]
    rfl

/-- **The reservation is an unbiased choice.** The loop over the minimums draws one position for
each node that it reserves, from the nodes that are free by then, and takes the picked nodes in
turn. The sequences of picks correspond one to one to the ordered choices of so many different
nodes. -/
theorem reservation_is_unbiased {n : Nat} (hn : n < Tally.modulus) {a : Assignment}
    (ha : a.size = n) (t : Tally) (minSizes : Array Nat) :
    let mins := minSizes.toList.take t.size
    let colors := owners 0 (granted n mins)
    let start : Reservation := ⟨Array.range n, 0, a⟩
    colors.length = min mins.sum n ∧
    (∀ {α : Type} (scope : Scope α), ∃ picks stream r t',
      scope.stream.ranges ((List.range colors.length).map (·, n)) = .ok (picks, stream) ∧
        picks.length = colors.length ∧ PicksFrom n 0 picks ∧
        takeMinimums 0 mins (start, t.reset) scope = .ok ((r, t'), { scope with stream }) ∧
        start.serve (colors.zip picks) = .ok r ∧ r.taken = picked (Array.range n) 0 picks) ∧
    (∀ picks : List Nat, picks.length = colors.length → PicksFrom n 0 picks →
      ∀ i ≤ colors.length, ∃ r, start.serve ((colors.zip picks).take i) = .ok r ∧
        r.nodes.toList.Perm (List.range n) ∧ r.reserved = i ∧
        r.taken = (picked (Array.range n) 0 picks).take i) ∧
    Set.BijOn (picked (Array.range n) 0)
      {picks | picks.length = colors.length ∧ PicksFrom n 0 picks}
      {chosen | chosen.length = colors.length ∧ chosen.Nodup ∧ ∀ v ∈ chosen, v < n} := by
  intro mins colors start
  have hmins : 0 + mins.length ≤ t.size := by
    rw [Nat.zero_add, List.length_take]
    exact Nat.min_le_left _ _
  have hcolors : ∀ c ∈ colors, c < t.size := by
    intro c hc
    have hlt := owners_lt c hc
    rw [length_granted] at hlt
    omega
  refine ⟨?_, fun scope => ?_, fun picks hlength hpicks i hi => ?_, bijOn_picked n _⟩
  · rw [length_owners, sum_granted]
  · obtain ⟨⟨r, t'⟩, scope', hrun, hserves, -⟩ := takeMinimums_serves (sound_start ha)
      (holds_start (Eq.refl t.size)) hn hmins scope
    obtain ⟨picks, stream, hdraws, rfl, hlength, hpicks, hserve⟩ := hserves
    -- After the last turn all picked nodes have been taken.
    obtain ⟨r', hserve', -, -, htaken⟩ := serve_start ha hcolors hlength hpicks le_rfl
    rw [List.take_of_length_le (by rw [List.length_zip]; exact Nat.min_le_left _ _)] at hserve'
    rw [List.take_of_length_le (by rw [length_picked]; exact hlength.le)] at htaken
    obtain rfl : r = r' := Except.ok.inj (hserve.symm.trans hserve')
    rw [← List.range_eq_range'] at hdraws
    exact ⟨picks, stream, r, t', hdraws, hlength, hpicks, hrun, hserve, htaken⟩
  · exact serve_start ha hcolors hlength hpicks hi

/-- Three nodes in two communities, of which the second one asks for more nodes than are left.
Only the picks 1, 1 and 2 take node 1 for the first community and nodes 0 and 2 for the second. -/
theorem reservation_of_three :
    let start : Reservation := ⟨Array.range 3, 0, #[7, 7, 7]⟩
    let scope : Scope Rat := .start 2 7 .never
    (∃ picks stream r t', PicksFrom 3 0 picks ∧
      scope.stream.ranges [(0, 3), (1, 3), (2, 3)] = .ok (picks, stream) ∧
      takeMinimums 0 [1, 5] (start, #[0, 0]) scope = .ok ((r, t'), { scope with stream }) ∧
      r.taken = picked (Array.range 3) 0 picks) ∧
    (∃ r, start.serve [(0, 1), (1, 1)] = .ok r ∧ r.nodes.toList.Perm (List.range 3) ∧
      r.taken = [1, 0]) ∧
    ∀ picks : List Nat, picks.length = 3 → PicksFrom 3 0 picks →
      picked (Array.range 3) 0 picks = [1, 0, 2] → picks = [1, 1, 2] := by
  intro start scope
  have hpicks : PicksFrom 3 0 [1, 1, 2] := by decide
  obtain ⟨-, hrun, hserve, hpicked⟩ := reservation_is_unbiased (n := 3) (by decide)
    (a := #[7, 7, 7]) rfl #[4, 4] #[1, 5, 9]
  refine ⟨?_, ?_, ?_⟩
  · obtain ⟨picks, stream, r, t', hdraws, -, hfree, htake, -, htaken⟩ := hrun scope
    exact ⟨picks, stream, r, t', hfree, hdraws, htake, htaken⟩
  · obtain ⟨r, htwo, hperm, -, htaken⟩ := hserve [1, 1, 2] rfl hpicks 2 (by decide)
    exact ⟨r, htwo, hperm, htaken⟩
  · intro picks hlength hfree hsame
    exact hpicked.injOn ⟨hlength, hfree⟩ ⟨rfl, hpicks⟩ hsame

end KCut.Reservation
