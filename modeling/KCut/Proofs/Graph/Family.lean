import Mathlib.Algebra.Order.BigOperators.Group.List
import Mathlib.Algebra.Order.BigOperators.Ring.Finset
import Mathlib.Tactic.Linarith
import KCut.Graph.Family
import KCut.Proofs.Graph.Reweighed

/-!
# KCut.Proofs.Graph.Family

Cuts of complete graphs and of stars, in exact arithmetic.

In a complete graph everything about an assignment can be read off the sizes of its
communities: the affinities of a node (`affinity_complete`) and the cut, which is what the
squares of the sizes leave of all pairs (`two_mul_cut_complete`). Of all sizes with one sum,
balanced ones have the smallest squares (`sum_sq_le_of_balanced`), so no cut is heavier than
theirs. The cut of a star adds up the weights of the leaves outside of the center's community
(`cut_weightedStar`).
-/

namespace KCut

open Finset (range)

/-! ### Sizes of communities -/

/-- **Balanced numbers have the smallest squares** among all numbers with the same sum. -/
theorem sum_sq_le_of_balanced {k : Nat} {s t : Nat → Nat}
    (hbalanced : ∀ i < k, ∀ j < k, s i ≤ s j + 1)
    (hsum : ∑ i ∈ range k, s i = ∑ i ∈ range k, t i) :
    ∑ i ∈ range k, (s i : Rat) ^ 2 ≤ ∑ i ∈ range k, (t i : Rat) ^ 2 := by
  rcases Nat.eq_zero_or_pos k with rfl | hk
  · simp
  obtain ⟨least, hleast, hle⟩ :=
    Finset.exists_min_image (range k) s ⟨0, Finset.mem_range.2 hk⟩
  -- The balanced numbers are the least one and the one after it. The line through the squares
  -- of these two is below all other squares.
  have hline : ∀ i ∈ range k, (2 * (s least : Rat) + 1) * (t i - s i) ≤
      (t i : Rat) ^ 2 - (s i : Rat) ^ 2 := by
    intro i hi
    have hlow := hle i hi
    have hhigh := hbalanced i (Finset.mem_range.1 hi) least (Finset.mem_range.1 hleast)
    have hsquare : (s i : Rat) ^ 2 =
        (2 * (s least : Rat) + 1) * s i - s least * (s least + 1) := by
      obtain heq | heq : s i = s least ∨ s i = s least + 1 := by omega
      · rw [heq]
        ring
      · rw [heq, Nat.cast_add, Nat.cast_one]
        ring
    have hbelow : (2 * (s least : Rat) + 1) * t i - s least * (s least + 1) ≤ (t i : Rat) ^ 2 := by
      obtain hsmall | hlarge : t i ≤ s least ∨ s least + 1 ≤ t i := by omega
      · have hsmall' : (t i : Rat) ≤ s least := by exact_mod_cast hsmall
        nlinarith
      · have hlarge' : (s least : Rat) + 1 ≤ t i := by exact_mod_cast hlarge
        nlinarith
    linarith
  have hsum' : ∑ i ∈ range k, (s i : Rat) = ∑ i ∈ range k, (t i : Rat) := by
    exact_mod_cast hsum
  have htotal := Finset.sum_le_sum hline
  rw [← Finset.mul_sum, Finset.sum_sub_distrib, Finset.sum_sub_distrib, hsum', sub_self,
    mul_zero] at htotal
  linarith

namespace Assignment

variable {a : Assignment} {n k : Nat}

/-- The size of a community, counted node by node. -/
theorem sum_community_eq (hsize : a.size = n) (c : Nat) :
    (∑ v ∈ range n, if a.community v = c then (1 : Rat) else 0) = a.count c := by
  rw [Finset.sum_boole, ← Array.count_toList, ← map_community_range hsize, List.count_eq_countP,
    List.countP_map, List.countP_eq_length_filter]
  rfl

/-- A sum over the nodes of what depends on their communities. -/
theorem sum_over_communities (ha : a.Legal n k) (f : Nat → Rat) :
    ∑ v ∈ range n, f (a.community v) = ∑ c ∈ range k, a.count c * f c := by
  have hnode : ∀ v ∈ range n, f (a.community v) =
      ∑ c ∈ range k, (if a.community v = c then 1 else 0) * f c := by
    intro v hv
    have hlt := ha.community_lt (Finset.mem_range.1 hv)
    simp only [ite_mul, one_mul, zero_mul]
    rw [Finset.sum_ite_eq, if_pos (Finset.mem_range.2 hlt)]
  rw [Finset.sum_congr rfl hnode, Finset.sum_comm]
  refine Finset.sum_congr rfl ?_
  intro c _
  rw [← Finset.sum_mul, sum_community_eq ha.size_eq]

/-- Every node is in one community. -/
theorem sum_count (ha : a.Legal n k) : ∑ c ∈ range k, a.count c = n := by
  have hsum := sum_over_communities ha fun _ => 1
  simp only [Finset.sum_const, Finset.card_range, nsmul_one, mul_one] at hsum
  exact_mod_cast hsum.symm

end Assignment

namespace EdgeList

/-- The cut of some edges as a sum over all of them. -/
theorem cutWeight_eq_sum (l : EdgeList Rat) (community : Nat → Nat) :
    l.cutWeight community = (l.edges.map fun e =>
      if community e.source ≠ community e.target then e.weightOrOne else 0).sum := by
  rw [cutWeight, ← List.sum_eq_foldl]
  induction l.edges with
  | nil => rfl
  | cons e rest ih =>
      by_cases he : community e.source = community e.target
      · rw [List.filter_cons_of_neg (by simp [he]), ih, List.map_cons, List.sum_cons,
          if_neg (not_not_intro he), zero_add]
      · rw [List.filter_cons_of_pos (by simp [he]), List.map_cons, List.sum_cons, ih,
          List.map_cons, List.sum_cons, if_pos he]

/-! ### Complete graphs -/

theorem build_ofPairs {n : Nat} {pairs : List (Nat × Nat)}
    (hpairs : ∀ p ∈ pairs, p.1 < n ∧ p.2 < n) :
    (ofPairs n pairs : EdgeList Rat).build = .ok (ofPairs n pairs).toGraph := by
  refine (build_eq_ok_iff _ _).2 ⟨List.findSome?_eq_none_iff.2 ?_, rfl⟩
  intro e he
  obtain ⟨p, hp, rfl⟩ := List.mem_map.1 he
  have hends := hpairs p hp
  have hrange : ¬ (n ≤ p.1 ∨ n ≤ p.2) := by omega
  exact if_neg hrange

/-- No edge of such a graph has a weight. -/
theorem weighted_ofPairs (n : Nat) (pairs : List (Nat × Nat)) :
    (ofPairs n pairs : EdgeList Rat).toGraph.weighted = false := by
  show (pairs.map fun p => (⟨p.1, p.2, none⟩ : Edge Rat)).any (·.weight.isSome) = false
  simp

theorem mem_cliquePairs {offset n : Nat} {p : Nat × Nat} :
    p ∈ cliquePairs offset n ↔ offset ≤ p.1 ∧ p.1 < p.2 ∧ p.2 < offset + n := by
  simp only [cliquePairs, List.mem_flatMap, List.mem_range, List.mem_map, List.mem_range'_1]
  constructor
  · rintro ⟨i, hi, j, hj, rfl⟩
    dsimp only
    omega
  · intro hp
    exact ⟨p.1 - offset, by omega, p.2 - offset, by omega, by ext <;> dsimp only <;> omega⟩

/-- No pair is listed twice. -/
theorem nodup_cliquePairs (offset n : Nat) : (cliquePairs offset n).Nodup := by
  refine List.nodup_flatMap.2 ⟨?_, ?_⟩
  · intro i _
    refine (List.nodup_range' 1).map ?_
    intro j j' h
    exact Nat.add_left_cancel (congrArg Prod.snd h)
  · refine List.nodup_range.imp ?_
    intro i i' hne p hp hp'
    obtain ⟨j, -, rfl⟩ := List.mem_map.1 hp
    obtain ⟨j', -, heq⟩ := List.mem_map.1 hp'
    exact hne (Nat.add_left_cancel (congrArg Prod.fst heq)).symm

theorem build_complete (n : Nat) :
    (complete n : EdgeList Rat).build = .ok (complete n).toGraph := by
  refine build_ofPairs ?_
  intro p hp
  have hends := mem_cliquePairs.1 hp
  omega

section

variable {n k : Nat} {a : Assignment} {v u : Nat}

/-- **Any two nodes of a complete graph are joined once.** -/
theorem link_complete (hv : v < n) (hu : u < n) (hvu : v ≠ u) :
    (complete n : EdgeList Rat).toGraph.link v u = 1 := by
  wlog hlt : v < u generalizing v u with hswap
  · rw [Graph.link_comm (wellFormed_of_build (build_complete n)) hv hu]
    exact hswap hu hv hvu.symm (by omega)
  have honce : (cliquePairs 0 n).count (v, u) = 1 :=
    List.count_eq_one_of_mem (nodup_cliquePairs 0 n) (mem_cliquePairs.2 (by dsimp only; omega))
  have hones : ∀ e ∈ (complete n : EdgeList Rat).edges.filter
      (fun e => s(e.source, e.target) = s(v, u)), e.weightOrOne = 1 := by
    intro e he
    obtain ⟨p, -, rfl⟩ := List.mem_map.1 (List.mem_filter.1 he).1
    rfl
  rw [link_eq_edges (build_complete n) hv hu hvu, sum_map_of_eq_one hones, complete, ofPairs,
    List.filter_map, List.length_map, ← List.countP_eq_length_filter]
  have hpair : (cliquePairs 0 n).countP
      ((fun e : Edge Rat => decide (s(e.source, e.target) = s(v, u))) ∘
        fun p => ⟨p.1, p.2, none⟩) = (cliquePairs 0 n).count (v, u) := by
    refine List.countP_congr ?_
    intro p hp
    have hends := (mem_cliquePairs.1 hp).2.1
    simp only [Function.comp_apply, decide_eq_true_eq, Sym2.eq_iff, beq_iff_eq, Prod.ext_iff]
    omega
  rw [hpair, honce, Nat.cast_one]

/-- The affinity of a node to a community is the number of other nodes in it. -/
theorem affinity_complete (hsize : a.size = n) (hv : v < n) (c : Nat) :
    (complete n : EdgeList Rat).toGraph.affinity a v c =
      a.count c - if a.community v = c then 1 else 0 := by
  have hmem : v ∈ range n := Finset.mem_range.2 hv
  rw [← Assignment.sum_community_eq hsize, ← Finset.add_sum_erase _ _ hmem, add_sub_cancel_left]
  refine Finset.sum_congr rfl ?_
  intro u hu
  obtain ⟨huv, hu⟩ := Finset.mem_erase.1 hu
  rw [link_complete hv (Finset.mem_range.1 hu) huv.symm]

/-- **The cut of a complete graph** is what the communities leave of all pairs. -/
theorem two_mul_cut_complete (ha : a.Legal n k) :
    2 * (complete n : EdgeList Rat).toGraph.cut a =
      (n : Rat) ^ 2 - ∑ c ∈ range k, (a.count c : Rat) ^ 2 := by
  have hrow : ∀ v ∈ range n, (∑ u ∈ range n, if a.community v ≠ a.community u then
      (complete n : EdgeList Rat).toGraph.link v u else 0) = n - a.count (a.community v) := by
    intro v hv
    rw [← Assignment.sum_community_eq ha.size_eq, eq_sub_iff_add_eq, ← Finset.sum_add_distrib]
    have hone : ∀ u ∈ range n, (if a.community v ≠ a.community u then
        (complete n : EdgeList Rat).toGraph.link v u else 0) +
        (if a.community u = a.community v then 1 else 0) = 1 := by
      intro u hu
      by_cases hsame : a.community u = a.community v
      · rw [if_neg (not_not_intro hsame.symm), if_pos hsame, zero_add]
      · have hvu : v ≠ u := fun heq => hsame (by rw [heq])
        rw [if_pos (Ne.symm hsame), if_neg hsame, add_zero,
          link_complete (Finset.mem_range.1 hv) (Finset.mem_range.1 hu) hvu]
    rw [Finset.sum_congr rfl hone, Finset.sum_const, Finset.card_range, nsmul_one]
  rw [Graph.cut, mul_div_cancel₀ _ two_ne_zero]
  show ∑ v ∈ range n, ∑ u ∈ range n, _ = _
  rw [Finset.sum_congr rfl hrow, Assignment.sum_over_communities ha fun c => n - a.count c]
  have hterm : ∀ c ∈ range k, (a.count c : Rat) * (n - a.count c) =
      n * a.count c - (a.count c : Rat) ^ 2 := fun c _ => by ring
  rw [Finset.sum_congr rfl hterm, Finset.sum_sub_distrib, ← Finset.mul_sum, ← Nat.cast_sum,
    Assignment.sum_count ha, sq]

end

/-! ### Stars -/

section

variable {ws : List Rat}

theorem build_weightedStar (ws : List Rat) :
    (weightedStar ws).build = .ok (weightedStar ws).toGraph := by
  refine (build_eq_ok_iff _ _).2 ⟨List.findSome?_eq_none_iff.2 ?_, rfl⟩
  intro e he
  obtain ⟨i, hi, rfl⟩ := List.mem_mapIdx.1 he
  have hrange : ¬ (ws.length + 1 ≤ 0 ∨ ws.length + 1 ≤ i + 1) := by omega
  exact if_neg hrange

/-- **The cut of a star**: each leaf outside of the center's community counts its weight. -/
theorem cut_weightedStar (a : Assignment) :
    (weightedStar ws).toGraph.cut a =
      (ws.zipIdx.map fun x => if a.community (x.2 + 1) ≠ a.community 0 then x.1 else 0).sum := by
  rw [cut_eq_cutWeight (build_weightedStar ws), cutWeight_eq_sum, weightedStar,
    List.mapIdx_eq_zipIdx_map, List.map_map]
  congr 1
  refine List.map_congr_left ?_
  intro x _
  exact if_congr ne_comm rfl rfl

theorem sum_zipIdx (ws : List Rat) : (ws.zipIdx.map fun x => x.1).sum = ws.sum := by
  rw [List.zipIdx_map_fst]

theorem totalWeight_weightedStar (ws : List Rat) : (weightedStar ws).totalWeight = ws.sum := by
  rw [totalWeight, ← List.sum_eq_foldl, weightedStar, List.mapIdx_eq_zipIdx_map, List.map_map]
  exact sum_zipIdx ws

end

end EdgeList

end KCut
