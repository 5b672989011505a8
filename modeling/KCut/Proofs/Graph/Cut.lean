import Mathlib.Algebra.BigOperators.Group.Finset.Sigma
import Mathlib.Algebra.BigOperators.Ring.Finset
import Mathlib.Algebra.Field.Rat
import Mathlib.Tactic.Ring
import KCut.Graph.Cut
import KCut.Proofs.Candidate
import KCut.Proofs.Graph.Incidence

/-!
# KCut.Proofs.Graph.Cut

The weight of a cut as a sum over pairs of nodes, in exact arithmetic.

`Graph.link` is the weight between two nodes, the same from both sides: an
undirected edge is stored at both ends, and of a directed pair both directions
are added up. The cut counts each pair from both sides and halves
(`Graph.cut`). The independent check of a cost has this value (`cutWeight_eq`), and
a move of one node changes it by the difference of two affinities
(`cut_setIfInBounds`).
-/

namespace KCut

open Finset (range)

/-- A checked fold that adds up gives the sum. -/
theorem foldlM_add {β : Type} {f : Rat → β → Except Fault Rat} {w : β → Rat} {l : List β}
    (h : ∀ x ∈ l, ∀ s, f s x = .ok (s + w x)) (s : Rat) :
    l.foldlM f s = .ok (s + (l.map w).sum) := by
  induction l generalizing s with
  | nil => simp
  | cons x rest ih =>
      rw [List.foldlM_cons, h x List.mem_cons_self, ok_bind,
        ih fun y hy => h y (List.mem_cons_of_mem x hy)]
      rw [List.map_cons, List.sum_cons, add_assoc]

theorem sum_map_range (f : Nat → Rat) (n : Nat) :
    ((List.range n).map f).sum = ∑ v ∈ range n, f v := by
  induction n with
  | zero => rfl
  | succ n ih =>
      rw [List.range_succ, List.map_append, List.sum_append, ih, Finset.sum_range_succ]
      simp

namespace Graph

/-! ### Weights by target -/

/-- The weight of those of some relationships that lead to `u`. -/
def weightTo (arcs : List (Arc Rat)) (u : Nat) : Rat :=
  ((arcs.filter (·.target = u)).map (·.weight)).sum

@[simp] theorem weightTo_nil (u : Nat) : weightTo [] u = 0 := rfl

@[simp] theorem weightTo_cons (a : Arc Rat) (arcs : List (Arc Rat)) (u : Nat) :
    weightTo (a :: arcs) u = (if u = a.target then a.weight else 0) + weightTo arcs u := by
  by_cases hu : u = a.target
  · rw [weightTo, List.filter_cons_of_pos (by simp [hu]), List.map_cons, List.sum_cons, if_pos hu,
      weightTo]
  · rw [weightTo, List.filter_cons_of_neg (by simp [Ne.symm hu]), if_neg hu, zero_add, weightTo]

/-- A sum over relationships, sorted by their targets. -/
theorem sum_weights_eq {arcs : List (Arc Rat)} {n : Nat} (h : ∀ a ∈ arcs, a.target < n)
    (P : Nat → Prop) [DecidablePred P] :
    (arcs.map fun a => if P a.target then a.weight else 0).sum =
      ∑ u ∈ range n, if P u then weightTo arcs u else 0 := by
  induction arcs with
  | nil => simp
  | cons a rest ih =>
      have hterm : ∀ u, (if P u then weightTo (a :: rest) u else 0) =
          (if u = a.target then if P u then a.weight else 0 else 0) +
            if P u then weightTo rest u else 0 := by
        intro u
        rw [weightTo_cons]
        by_cases hP : P u
        · simp [hP]
        · simp [hP]
      rw [List.map_cons, List.sum_cons, ih fun b hb => h b (List.mem_cons_of_mem a hb)]
      simp only [hterm, Finset.sum_add_distrib, Finset.sum_ite_eq', Finset.mem_range,
        h a List.mem_cons_self, if_true]

/-! ### Links, affinities and the cut -/

variable {g : Graph Rat} {a : Assignment} {v u c d : Nat}

/-- The weight between two nodes, seen from `v`. -/
def link (g : Graph Rat) (v u : Nat) : Rat :=
  weightTo (g.outgoing.row v) u + if g.undirected then 0 else weightTo (g.outgoing.row u) v

/-- The affinity of `v` to a community: the weight between `v` and the other
nodes in it. -/
def affinity (g : Graph Rat) (a : Assignment) (v c : Nat) : Rat :=
  ∑ u ∈ (range g.nodeCount).erase v, if a.community u = c then g.link v u else 0

/-- The weight of the cut: each pair of nodes in different communities is seen
from both sides. -/
def cut (g : Graph Rat) (a : Assignment) : Rat :=
  (∑ v ∈ range g.nodeCount, ∑ u ∈ range g.nodeCount,
    if a.community v ≠ a.community u then g.link v u else 0) / 2

theorem link_comm (wf : g.WellFormed) (hv : v < g.nodeCount) (hu : u < g.nodeCount) :
    g.link v u = g.link u v := by
  unfold link
  cases hdir : g.undirected with
  | true =>
      have hweight : weightTo (g.outgoing.row v) u = weightTo (g.outgoing.row u) v :=
        congrArg List.sum (wf.between_comm hdir hv hu)
      rw [hweight]
  | false => exact add_comm _ _

/-- Only linked nodes have weight between them. -/
theorem link_eq_zero (huv : u ≠ v) (h : ¬ g.Linked u v) : g.link v u = 0 := by
  have hnone : g.between u v = [] ∧ g.between v u = [] := by
    rw [Linked, mem_targets_iff, mem_targets_iff] at h
    refine ⟨by_contra fun hne => h ⟨huv, Or.inl hne⟩, by_contra fun hne => h ⟨huv, Or.inr hne⟩⟩
  have hto : weightTo (g.outgoing.row v) u = 0 := congrArg List.sum hnone.2
  have hfrom : weightTo (g.outgoing.row u) v = 0 := congrArg List.sum hnone.1
  rw [link, hto, hfrom, ite_self, add_zero]

/-- Within one community nothing is cut. -/
theorem cut_eq_zero
    (h : ∀ v < g.nodeCount, ∀ u < g.nodeCount, a.community v = a.community u) : g.cut a = 0 := by
  have hsum : ∑ v ∈ range g.nodeCount, ∑ u ∈ range g.nodeCount,
      (if a.community v ≠ a.community u then g.link v u else 0) = 0 :=
    Finset.sum_eq_zero fun v hv => Finset.sum_eq_zero fun u hu =>
      if_neg (not_not_intro (h v (Finset.mem_range.1 hv) u (Finset.mem_range.1 hu)))
  rw [cut, hsum, zero_div]

/-- What is left of the cut if nothing of one node counts. -/
theorem cut_eq (wf : g.WellFormed) (hv : v < g.nodeCount) (a : Assignment) :
    g.cut a =
      (∑ u ∈ (range g.nodeCount).erase v, if a.community v ≠ a.community u then g.link v u else 0) +
        (∑ x ∈ (range g.nodeCount).erase v, ∑ y ∈ (range g.nodeCount).erase v,
          if a.community x ≠ a.community y then g.link x y else 0) / 2 := by
  have hmem : v ∈ range g.nodeCount := Finset.mem_range.2 hv
  -- The terms of the pairs with `v` on the one side are those with `v` on the other.
  have hcross : ∑ x ∈ (range g.nodeCount).erase v,
        (if a.community x ≠ a.community v then g.link x v else 0) =
      ∑ u ∈ (range g.nodeCount).erase v,
        if a.community v ≠ a.community u then g.link v u else 0 := by
    refine Finset.sum_congr rfl fun x hx => ?_
    have hx' := Finset.mem_range.1 (Finset.mem_of_mem_erase hx)
    rw [link_comm wf hx' hv]
    exact if_congr ne_comm rfl rfl
  rw [cut, ← Finset.add_sum_erase _ _ hmem]
  simp only [← Finset.add_sum_erase _ _ hmem, Finset.sum_add_distrib, ne_eq, not_true_eq_false,
    if_false, zero_add]
  simp only [ne_eq] at hcross
  rw [hcross]
  ring

/-- The weight between a node and the nodes outside a community. -/
theorem sum_other_eq (g : Graph Rat) (a : Assignment) (v c : Nat) :
    (∑ u ∈ (range g.nodeCount).erase v, if c ≠ a.community u then g.link v u else 0) =
      (∑ u ∈ (range g.nodeCount).erase v, g.link v u) - g.affinity a v c := by
  rw [affinity, eq_sub_iff_add_eq, ← Finset.sum_add_distrib]
  refine Finset.sum_congr rfl fun u _ => ?_
  by_cases hc : a.community u = c
  · rw [if_neg (not_not_intro hc.symm), if_pos hc, zero_add]
  · rw [if_pos (Ne.symm hc), if_neg hc, add_zero]

/-- The affinities of a node to all communities add up to the weight between the node
and the others. -/
theorem sum_affinity {k : Nat} (ha : a.Legal g.nodeCount k) (v : Nat) :
    ∑ c ∈ range k, g.affinity a v c = ∑ u ∈ (range g.nodeCount).erase v, g.link v u := by
  simp only [affinity]
  rw [Finset.sum_comm]
  refine Finset.sum_congr rfl ?_
  intro u hu
  have hlt := ha.community_lt (Finset.mem_range.1 (Finset.mem_of_mem_erase hu))
  rw [Finset.sum_ite_eq, if_pos (Finset.mem_range.2 hlt)]

/-- The cut is what is left of all weights without those inside the communities. -/
theorem cut_eq_sum_sub (g : Graph Rat) (a : Assignment) :
    g.cut a = (∑ v ∈ range g.nodeCount, ((∑ u ∈ (range g.nodeCount).erase v, g.link v u) -
      g.affinity a v (a.community v))) / 2 := by
  rw [cut]
  congr 1
  refine Finset.sum_congr rfl ?_
  intro v _
  rw [← sum_other_eq]
  symm
  apply Finset.sum_erase
  simp

/-- An affinity depends on the communities of the linked nodes only. -/
theorem affinity_congr {b : Assignment}
    (h : ∀ u < g.nodeCount, g.Linked u v → a.community u = b.community u) (c : Nat) :
    g.affinity a v c = g.affinity b v c := by
  refine Finset.sum_congr rfl fun u hu => ?_
  obtain ⟨huv, hun⟩ := Finset.mem_erase.1 hu
  by_cases hlink : g.Linked u v
  · rw [h u (Finset.mem_range.1 hun) hlink]
  · rw [link_eq_zero huv hlink, ite_self, ite_self]

/-- **A move changes the cut by its gain**: what the node leaves behind is cut
from then on, what it meets no longer. -/
theorem cut_setIfInBounds (wf : g.WellFormed) (hsize : a.size = g.nodeCount)
    (hv : v < g.nodeCount) (d : Nat) :
    g.cut (a.setIfInBounds v d) =
      g.cut a + (g.affinity a v (a.community v) - g.affinity a v d) := by
  have hcommunity := Assignment.community_setIfInBounds (hsize ▸ hv) d
  have hother : ∀ u ∈ (range g.nodeCount).erase v,
      Assignment.community (a.setIfInBounds v d) u = a.community u := fun u hu => by
    rw [hcommunity, if_neg (Finset.ne_of_mem_erase hu)]
  -- The pairs without `v` are cut as before; of the others, those with the new community.
  have hrest : (∑ x ∈ (range g.nodeCount).erase v, ∑ y ∈ (range g.nodeCount).erase v,
        if Assignment.community (a.setIfInBounds v d) x ≠
          Assignment.community (a.setIfInBounds v d) y then g.link x y else 0) =
      ∑ x ∈ (range g.nodeCount).erase v, ∑ y ∈ (range g.nodeCount).erase v,
        if a.community x ≠ a.community y then g.link x y else 0 :=
    Finset.sum_congr rfl fun x hx => Finset.sum_congr rfl fun y hy => by
      rw [hother x hx, hother y hy]
  have hrow : (∑ u ∈ (range g.nodeCount).erase v,
        if Assignment.community (a.setIfInBounds v d) v ≠
          Assignment.community (a.setIfInBounds v d) u then g.link v u else 0) =
      ∑ u ∈ (range g.nodeCount).erase v, if d ≠ a.community u then g.link v u else 0 :=
    Finset.sum_congr rfl fun u hu => by rw [hother u hu, hcommunity, if_pos rfl]
  rw [cut_eq wf hv, cut_eq wf hv, hrest, hrow, sum_other_eq, sum_other_eq]
  ring

/-! ### The computations of a cut weight -/

/-- **What is stored at the nodes adds up to the weight between them**, for any choice
of pairs: it is counted twice where both ends store a relationship. -/
theorem sum_link_eq (wf : g.WellFormed) {P : Nat → Nat → Prop} [DecidableRel P]
    (hsymm : ∀ {v u : Nat}, P v u ↔ P u v) :
    (∑ v ∈ range g.nodeCount, ∑ u ∈ range g.nodeCount, if P v u then g.link v u else 0) / 2 =
      (∑ v ∈ range g.nodeCount,
        ((g.outgoing.row v).map fun x => if P v x.target then x.weight else 0).sum) /
          if g.undirected then 2 else 1 := by
  have hfrom : ∑ v ∈ range g.nodeCount,
        ((g.outgoing.row v).map fun x => if P v x.target then x.weight else 0).sum =
      ∑ v ∈ range g.nodeCount, ∑ u ∈ range g.nodeCount,
        if P v u then weightTo (g.outgoing.row v) u else 0 := by
    refine Finset.sum_congr rfl ?_
    intro v hv
    exact sum_weights_eq (wf.target_lt (Finset.mem_range.1 hv)) (P v)
  rw [hfrom]
  cases hdir : g.undirected with
  | true => simp [link, hdir]
  | false =>
      -- Each relationship is stored once, and both of its ends see it in their link.
      have hback : (∑ v ∈ range g.nodeCount, ∑ u ∈ range g.nodeCount,
            if P v u then weightTo (g.outgoing.row u) v else 0) =
          ∑ v ∈ range g.nodeCount, ∑ u ∈ range g.nodeCount,
            if P v u then weightTo (g.outgoing.row v) u else 0 := by
        rw [Finset.sum_comm]
        refine Finset.sum_congr rfl ?_
        intro v _
        refine Finset.sum_congr rfl ?_
        intro u _
        exact if_congr hsymm rfl rfl
      have hlink : ∀ v u, (if P v u then g.link v u else 0) =
          (if P v u then weightTo (g.outgoing.row v) u else 0) +
            if P v u then weightTo (g.outgoing.row u) v else 0 := by
        intro v u
        split
        · rw [link, hdir]
          rfl
        · rw [add_zero]
      simp only [hlink, Finset.sum_add_distrib]
      rw [hback]
      simp

/-- The weight of the cut relationships that are stored at `v`. -/
def cutFrom (g : Graph Rat) (a : Assignment) (v : Nat) : Rat :=
  ((g.outgoing.row v).map fun x =>
    if a.community v ≠ a.community x.target then x.weight else 0).sum

/-- What is stored at the nodes adds up to the cut. -/
theorem sum_cutFrom (wf : g.WellFormed) (a : Assignment) :
    (∑ v ∈ range g.nodeCount, g.cutFrom a v) / (if g.undirected then 2 else 1) = g.cut a :=
  (sum_link_eq wf (P := fun v u => a.community v ≠ a.community u) ne_comm).symm

/-- **The independent check of a cost computes the cut.** -/
theorem cutWeight_eq (wf : g.WellFormed) (hsize : a.size = g.nodeCount) :
    g.cutWeight a = .ok (g.cut a) := by
  have hnode : ∀ v ∈ List.range g.nodeCount, ∀ sum : Rat,
      (do addCutArcs a v sum (← g.arcs v)) = .ok (sum + g.cutFrom a v) := by
    intro v hv sum
    rw [List.mem_range] at hv
    rw [wf.arcs_eq hv, ok_bind, addCutArcs]
    refine foldlM_add (fun x hx sum => ?_) sum
    have hhere : Buffer.read a v = .ok (a.community v) := Assignment.get_eq (hsize ▸ hv)
    have hthere : Buffer.read a x.target = .ok (a.community x.target) :=
      Assignment.get_eq (hsize ▸ wf.target_lt hv x hx)
    rw [hhere, hthere, ok_bind, ok_bind]
    split
    · rfl
    · rw [add_zero]; rfl
  rw [cutWeight, if_neg (not_not_intro hsize), ← sum_cutFrom wf a, ← sum_map_range]
  simp only [foldlM_add hnode]
  cases g.undirected with
  | true => simp
  | false => simp

end Graph

end KCut
