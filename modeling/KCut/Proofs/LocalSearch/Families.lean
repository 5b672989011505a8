import KCut.Proofs.Graph.Family
import KCut.Proofs.LocalSearch.Unweighted

/-!
# KCut.Proofs.LocalSearch.Families

Local searches that find the best of all cuts: those on complete graphs and on stars.

A search that nothing stops ends in a stable assignment (`endsIn_finished`). Without minimums,
a node of a complete graph is best off in the smallest community or in the largest one; so
a stable assignment is balanced if heavy cuts are better (`balanced_of_stable`), and is one
community if light ones are (`one_community_of_stable`). On a star every leaf gains its
weight by leaving the community of the center (`leaves_apart_of_stable`).
-/

namespace KCut.LocalSearch

/-! ### How searches end -/

/-- Wherever it starts, in whatever order it visits its blocks, a search that nothing stops
ends with a candidate of which `P` holds. -/
def EndsIn (ls : LocalSearch Rat) (P : Candidate Rat → Prop) : Prop :=
  ∀ (schedule : Schedule) (w : Workspace Rat) (c : Candidate Rat) (scope : Scope Rat),
    (∀ i, (schedule i).Perm ls.partitions) → w.Fits ls → c.Sound ls.graph.nodeCount ls.k →
    scope.termination.NeverFires →
    ∃ outcome w' c' scope', ls.computeOn schedule w c scope = .ok ((outcome, w', c'), scope') ∧ P c'

/-- What a search ends with if nothing stops it: a legal assignment that no move makes
better, scored with its cut. -/
structure Finished (ls : LocalSearch Rat) (c : Candidate Rat) : Prop where
  legal : c.assignment.Legal ls.graph.nodeCount ls.k
  stable : ls.Stable c.assignment
  cost_eq : c.cost = .of (ls.graph.cut c.assignment)

section

variable {ls : LocalSearch Rat}

theorem EndsIn.mono {P Q : Candidate Rat → Prop} (h : ls.EndsIn P) (himp : ∀ c, P c → Q c) :
    ls.EndsIn Q := by
  intro schedule w c scope hschedule hw hc hnever
  obtain ⟨outcome, w', c', scope', hcompute, hP⟩ := h schedule w c scope hschedule hw hc hnever
  exact ⟨outcome, w', c', scope', hcompute, himp c' hP⟩

/-- **A search that nothing stops ends in a stable assignment.** -/
theorem endsIn_finished (ready : ls.Ready) : ls.EndsIn ls.Finished := by
  intro schedule w c scope hschedule hw hc hnever
  obtain ⟨⟨outcome, w', c'⟩, scope', hcompute, -, hsearched, p, hrounds, -, hassignment, hquiet⟩ :=
    computeOn_gives ready hschedule hw hc scope
  have hconverged : p.changed = false :=
    not_mem_answersFor_iff.1 (hnever.answers hquiet.asked)
  have hstable : ls.Stable c'.assignment := by
    rw [show c'.assignment = p.assignment from hassignment]
    exact hrounds.stable ready rfl hconverged
  exact ⟨outcome, w', c', scope', hcompute, hsearched.sound.legal, hstable, hsearched.cost_eq⟩

end

/-- A search without minimums. -/
def free (g : Graph Rat) (objective : Objective) (k concurrency minBatch : Nat) :
    LocalSearch Rat :=
  .new g objective k (Array.replicate k 0) concurrency minBatch

section

variable {l : EdgeList Rat} {g : Graph Rat} {objective : Objective}
  {k concurrency minBatch : Nat}

theorem free_minSizes : ∀ c < k,
    (free g objective k concurrency minBatch).minSizes.getD c 0 = 0 := by
  intro c hc
  show (Array.replicate k 0).getD c 0 = 0
  simp [hc]

theorem free_endsIn (hbuild : l.build = .ok g) (hword : g.nodeCount < Tally.modulus) :
    (free g objective k concurrency minBatch).EndsIn
      (free g objective k concurrency minBatch).Finished :=
  endsIn_finished (ready_new (EdgeList.wellFormed_of_build hbuild) hword objective
    Array.size_replicate concurrency minBatch)

/-- A node of a community that has one. -/
theorem exists_member {a : Assignment} {c : Nat} (h : 0 < a.count c) :
    ∃ v < a.size, a.community v = c := by
  obtain ⟨v, hv, hc⟩ := Array.mem_iff_getElem.1 (Array.count_pos_iff.1 h)
  exact ⟨v, hv, (Assignment.community_eq_getElem hv).trans hc⟩

/-! ### Complete graphs -/

open EdgeList (complete weightedStar)

variable {n : Nat} {a b : Assignment}

/-- **Where heavy cuts are better, a stable assignment is balanced.** -/
theorem balanced_of_stable (ha : a.Legal n k)
    (h : (free (complete n).toGraph .maximize k concurrency minBatch).Stable a) :
    ∀ i < k, ∀ j < k, a.count i ≤ a.count j + 1 := by
  intro i hi j hj
  by_contra hlarge
  -- Otherwise some node would gain by moving from the large community to the small one.
  obtain ⟨v, hv, rfl⟩ := exists_member (show 0 < a.count i by omega)
  have hne : j ≠ a.community v := fun heq => hlarge (by rw [heq]; omega)
  rw [ha.size_eq] at hv
  have hmove := h.not_better_affinity ha free_minSizes hv hj hne
  have hhere := EdgeList.affinity_complete ha.size_eq hv (a.community v)
  have hthere := EdgeList.affinity_complete ha.size_eq hv j
  rw [if_pos rfl] at hhere
  rw [if_neg hne.symm, sub_zero] at hthere
  refine hmove ?_
  show decide ((complete n).toGraph.affinity a v j < (complete n).toGraph.affinity a v _) = true
  rw [decide_eq_true_eq, hhere, hthere, lt_sub_iff_add_lt]
  exact_mod_cast Nat.lt_of_not_le hlarge

/-- No cut of a complete graph is heavier than a balanced one. -/
theorem cut_complete_le_of_balanced (ha : a.Legal n k) (hb : b.Legal n k)
    (hbalanced : ∀ i < k, ∀ j < k, a.count i ≤ a.count j + 1) :
    (complete n : EdgeList Rat).toGraph.cut b ≤ (complete n : EdgeList Rat).toGraph.cut a := by
  have hsquares := sum_sq_le_of_balanced hbalanced
    ((Assignment.sum_count ha).trans (Assignment.sum_count hb).symm)
  have hcut := EdgeList.two_mul_cut_complete ha
  have hcut' := EdgeList.two_mul_cut_complete hb
  linarith

/-- **Where light cuts are better, a stable assignment is one community.** -/
theorem one_community_of_stable (ha : a.Legal n k)
    (h : (free (complete n).toGraph .minimize k concurrency minBatch).Stable a) {v u : Nat}
    (hv : v < n) (hu : u < n) : a.community v = a.community u := by
  by_contra hne
  -- The affinity of a node to the other community is no larger than to its own, from both sides.
  have hside : ∀ {v u : Nat}, v < n → u < n → a.community v ≠ a.community u →
      (a.count (a.community u) : Rat) + 1 ≤ a.count (a.community v) := by
    intro v u hv hu hne
    have hmove := h.not_better_affinity ha free_minSizes hv (ha.community_lt hu) hne.symm
    have hhere := EdgeList.affinity_complete ha.size_eq hv (a.community v)
    have hthere := EdgeList.affinity_complete ha.size_eq hv (a.community u)
    rw [if_pos rfl] at hhere
    rw [if_neg hne, sub_zero] at hthere
    by_contra hlt
    refine hmove ?_
    show decide ((complete n).toGraph.affinity a v _ < (complete n).toGraph.affinity a v _) = true
    rw [decide_eq_true_eq, hhere, hthere]
    linarith
  have hthere := hside hv hu hne
  have hback := hside hu hv (Ne.symm hne)
  linarith

/-! ### Stars -/

/-- A leaf that leaves the center's community adds its weight to the cut. -/
theorem cut_lt_of_leaf_leaves {ws : List Rat} (hpos : ∀ w ∈ ws, 0 < w)
    (hsize : a.size = ws.length + 1) {leaf c : Nat} (hleaf : leaf < ws.length)
    (hsame : a.community (leaf + 1) = a.community 0) (hc : c ≠ a.community 0) :
    (weightedStar ws).toGraph.cut a <
      (weightedStar ws).toGraph.cut (a.setIfInBounds (leaf + 1) c) := by
  have hcommunity : ∀ v, Assignment.community (a.setIfInBounds (leaf + 1) c) v =
      if v = leaf + 1 then c else a.community v :=
    Assignment.community_setIfInBounds (by omega) c
  have hfirst : ((ws[leaf], leaf) : Rat × Nat) ∈ ws.zipIdx :=
    List.mk_mem_zipIdx_iff_getElem?.2 (List.getElem?_eq_getElem hleaf)
  rw [EdgeList.cut_weightedStar, EdgeList.cut_weightedStar, hcommunity 0, if_neg (by omega)]
  -- Only the term of the leaf itself changes.
  refine List.sum_lt_sum _ _ ?_ ⟨_, hfirst, ?_⟩
  · intro x hx
    obtain ⟨-, hw⟩ := List.mem_zipIdx' hx
    rw [hcommunity]
    by_cases hx' : x.2 = leaf
    · rw [hx', hsame, if_neg (not_not_intro rfl), if_pos rfl, if_pos hc, hw]
      exact (hpos _ (List.getElem_mem _)).le
    · rw [if_neg (by omega : ¬ x.2 + 1 = leaf + 1)]
  · dsimp only
    rw [hcommunity, hsame, if_neg (not_not_intro rfl), if_pos rfl, if_pos hc]
    exact hpos _ (List.getElem_mem _)

/-- **A stable assignment of a star leaves the center alone** in its community, if heavy cuts
are better and there is another one. -/
theorem leaves_apart_of_stable {ws : List Rat} (hpos : ∀ w ∈ ws, 0 < w) (hk : 1 < k)
    (ha : a.Legal (ws.length + 1) k)
    (h : (free (weightedStar ws).toGraph .maximize k concurrency minBatch).Stable a)
    {leaf : Nat} (hleaf : leaf < ws.length) : a.community (leaf + 1) ≠ a.community 0 := by
  intro hsame
  obtain ⟨c, hc, hne⟩ : ∃ c < k, c ≠ a.community 0 := by
    by_cases hzero : a.community 0 = 0
    · exact ⟨1, hk, by omega⟩
    · exact ⟨0, by omega, Ne.symm hzero⟩
  have hv : leaf + 1 < ws.length + 1 := by omega
  have hmove := h.not_better_affinity ha free_minSizes hv hc (by rw [hsame]; exact hne)
  rw [← better_setIfInBounds_iff (EdgeList.wellFormed_of_build (EdgeList.build_weightedStar ws))
    ha.size_eq hv] at hmove
  exact hmove (decide_eq_true (cut_lt_of_leaf_leaves hpos ha.size_eq hleaf hsame hne))

/-- With all leaves apart from the center, everything is cut. -/
theorem cut_eq_sum_of_leaves_apart {ws : List Rat}
    (h : ∀ leaf < ws.length, a.community (leaf + 1) ≠ a.community 0) :
    (weightedStar ws).toGraph.cut a = ws.sum := by
  rw [EdgeList.cut_weightedStar, ← EdgeList.sum_zipIdx ws]
  congr 1
  refine List.map_congr_left ?_
  intro x hx
  exact if_pos (h x.2 (List.mem_zipIdx' hx).1)

theorem cut_weightedStar_le_sum {ws : List Rat} (hpos : ∀ w ∈ ws, 0 < w) (a : Assignment) :
    (weightedStar ws).toGraph.cut a ≤ ws.sum := by
  rw [EdgeList.cut_weightedStar, ← EdgeList.sum_zipIdx ws]
  refine List.sum_le_sum ?_
  intro x hx
  have hw : 0 < x.1 := hpos x.1 (List.fst_mem_of_mem_zipIdx hx)
  split
  · exact le_refl _
  · exact hw.le

/-! ### The best of all cuts -/

/-- The cost of a candidate is the weight of its cut, and no other assignment has a better
one. -/
structure Optimal (g : Graph Rat) (objective : Objective) (k : Nat) (c : Candidate Rat) : Prop where
  legal : c.assignment.Legal g.nodeCount k
  cost : ∃ cost, c.cost = .of cost ∧ g.cutWeight c.assignment = .ok cost ∧
    ∀ b : Assignment, b.Legal g.nodeCount k →
      ∃ cost', g.cutWeight b = .ok cost' ∧ ¬ objective.better cost' cost = true

theorem Finished.optimal (hbuild : l.build = .ok g) {c : Candidate Rat}
    (h : (free g objective k concurrency minBatch).Finished c)
    (hbest : ∀ b : Assignment, b.Legal g.nodeCount k →
      ¬ objective.better (g.cut b) (g.cut c.assignment) = true) :
    Optimal g objective k c where
  legal := h.legal
  cost := by
    have wf := EdgeList.wellFormed_of_build hbuild
    refine ⟨_, h.cost_eq, Graph.cutWeight_eq wf h.legal.size_eq, ?_⟩
    intro b hb
    exact ⟨_, Graph.cutWeight_eq wf hb.size_eq, hbest b hb⟩

/-- Heavy cuts of complete graphs: the search ends balanced. -/
theorem complete_maximize_endsIn (hn : n < Tally.modulus) :
    (free (complete n).toGraph .maximize k concurrency minBatch).EndsIn fun c =>
      Optimal (complete n).toGraph .maximize k c ∧
      ∃ sizes, c.assignment.communitySizes k = .ok sizes ∧
        ∀ i < k, ∀ j < k, sizes.getD i 0 ≤ sizes.getD j 0 + 1 := by
  have hbuild := EdgeList.build_complete n
  refine (free_endsIn hbuild hn).mono ?_
  intro c h
  have hbalanced := balanced_of_stable h.legal h.stable
  obtain ⟨sizes, hsizes, hagrees, -⟩ := Assignment.communitySizes_eq h.legal
  refine ⟨h.optimal hbuild ?_, sizes, hsizes, ?_⟩
  · intro b hb
    have hmost : (complete n).toGraph.cut b ≤ (complete n).toGraph.cut c.assignment :=
      cut_complete_le_of_balanced h.legal hb hbalanced
    simpa using hmost
  · intro i hi j hj
    rw [hagrees.getD_eq hi, hagrees.getD_eq hj]
    exact hbalanced i hi j hj

/-- Light cuts of complete graphs: the search ends in one community. -/
theorem complete_minimize_endsIn (hk : 0 < k) (hn : n < Tally.modulus) :
    (free (complete n).toGraph .minimize k concurrency minBatch).EndsIn fun c =>
      Optimal (complete n).toGraph .minimize k c ∧ c.cost = .of 0 ∧
      ∃ community < k, ∀ v < n, c.assignment.community v = community := by
  have hbuild := EdgeList.build_complete n
  refine (free_endsIn hbuild hn).mono ?_
  intro c h
  have hone := fun v hv u hu => one_community_of_stable h.legal h.stable (v := v) (u := u) hv hu
  have hcut : (complete n).toGraph.cut c.assignment = 0 := Graph.cut_eq_zero hone
  refine ⟨h.optimal hbuild ?_, ?_, ?_⟩
  · intro b hb
    have hleast := (EdgeList.cut_le_length hbuild (EdgeList.weighted_ofPairs n _) b).1
    rw [hcut]
    simpa using hleast
  · rw [h.cost_eq]
    exact congrArg Score.of hcut
  · rcases Nat.eq_zero_or_pos n with rfl | hn
    · exact ⟨0, hk, by omega⟩
    · exact ⟨c.assignment.community 0, h.legal.community_lt hn, fun v hv => hone v hv 0 hn⟩

/-- Heavy cuts of stars: the search ends with every leaf apart from the center. -/
theorem weightedStar_endsIn {ws : List Rat} (hk : 1 < k) (hpos : ∀ w ∈ ws, 0 < w)
    (hn : ws.length + 1 < Tally.modulus) :
    (free (weightedStar ws).toGraph .maximize k concurrency minBatch).EndsIn fun c =>
      Optimal (weightedStar ws).toGraph .maximize k c ∧
      c.cost = .of (weightedStar ws).toGraph.totalEdgeWeight ∧
      ∀ leaf < ws.length, c.assignment.community (leaf + 1) ≠ c.assignment.community 0 := by
  have hbuild := EdgeList.build_weightedStar ws
  refine (free_endsIn hbuild hn).mono ?_
  intro c h
  have hapart := fun (leaf : Nat) (hleaf : leaf < ws.length) =>
    leaves_apart_of_stable hpos hk h.legal h.stable hleaf
  have hcut := cut_eq_sum_of_leaves_apart hapart
  refine ⟨h.optimal hbuild ?_, ?_, hapart⟩
  · intro b hb
    have hmost := cut_weightedStar_le_sum hpos b
    rw [hcut]
    simpa using hmost
  · rw [h.cost_eq, EdgeList.totalEdgeWeight_eq hbuild, EdgeList.totalWeight_weightedStar]
    exact congrArg Score.of hcut

/-- **Searches without minimums find the best cuts of complete graphs and of stars**, wherever
they start and in whatever order they visit their blocks. With heavy cuts better, the sizes of
the communities of a complete graph differ by at most one; with light ones better, all nodes are
in one community; and every edge of a star with positive weights is cut. -/
theorem searches_solve_complete_graphs_and_stars {k : Nat} (hk : 0 < k)
    (concurrency minBatch : Nat) :
    (∀ n < Tally.modulus, ∃ g : Graph Rat, (complete n).build = .ok g ∧
      ((free g .maximize k concurrency minBatch).EndsIn fun c =>
        Optimal g .maximize k c ∧
        ∃ sizes, c.assignment.communitySizes k = .ok sizes ∧
          ∀ i < k, ∀ j < k, sizes.getD i 0 ≤ sizes.getD j 0 + 1) ∧
      ((free g .minimize k concurrency minBatch).EndsIn fun c =>
        Optimal g .minimize k c ∧ c.cost = .of 0 ∧
        ∃ community < k, ∀ v < n, c.assignment.community v = community)) ∧
    ∀ ws : List Rat, (∀ w ∈ ws, 0 < w) → ws.length + 1 < Tally.modulus → 1 < k →
      ∃ g : Graph Rat, (weightedStar ws).build = .ok g ∧
        (free g .maximize k concurrency minBatch).EndsIn fun c =>
          Optimal g .maximize k c ∧ c.cost = .of g.totalEdgeWeight ∧
          ∀ leaf < ws.length, c.assignment.community (leaf + 1) ≠ c.assignment.community 0 := by
  constructor
  · intro n hn
    exact ⟨_, EdgeList.build_complete n, complete_maximize_endsIn hn,
      complete_minimize_endsIn hk hn⟩
  · intro ws hpos hn hk
    exact ⟨_, EdgeList.build_weightedStar ws, weightedStar_endsIn hk hpos hn⟩

/-- Four nodes that start in one community and a star with two leaves, one of them heavier,
that starts likewise, visited from the last block to the first. -/
theorem optima_of_four_nodes_and_two_leaves :
    let scope : Scope Rat := .start 3 0 .never
    let joined : LocalSearch Rat := free (complete 4).toGraph .maximize 2 3 1
    let star : LocalSearch Rat := free (weightedStar [1, 3]).toGraph .maximize 2 3 1
    (∃ r scope' cost, joined.computeOn (fun _ => joined.partitions.reverse) joined.workspace
        ⟨#[0, 0, 0, 0], #[4, 0], .worst⟩ scope = .ok (r, scope') ∧
      r.2.2.cost = .of cost ∧ 4 ≤ cost ∧ ∃ sizes,
        r.2.2.assignment.communitySizes 2 = .ok sizes ∧ sizes.getD 0 0 ≤ sizes.getD 1 0 + 1) ∧
    ∃ r scope', star.computeOn (fun _ => star.partitions.reverse) star.workspace
        ⟨#[0, 0, 0], #[3, 0], .worst⟩ scope = .ok (r, scope') ∧
      r.2.2.cost = .of 4 ∧ r.2.2.assignment.community 2 ≠ r.2.2.assignment.community 0 := by
  intro scope joined star
  have hnever : scope.termination.NeverFires := .of_poll_eq rfl
  have hall := searches_solve_complete_graphs_and_stars (k := 2) (by decide) 3 1
  constructor
  · obtain ⟨g, hbuild, hheavy, -⟩ := hall.1 4 (by decide)
    obtain rfl : (complete 4).toGraph = g :=
      Except.ok.inj ((EdgeList.build_complete 4).symm.trans hbuild)
    obtain ⟨outcome, w, c, scope', hcompute, hoptimal, sizes, hsizes, hbalanced⟩ :=
      hheavy (fun _ => joined.partitions.reverse) joined.workspace ⟨#[0, 0, 0, 0], #[4, 0], .worst⟩
        scope (fun _ => List.reverse_perm _) ⟨by decide +kernel, by decide +kernel⟩
        ⟨by decide, by decide⟩ hnever
    obtain ⟨cost, hcost, -, hbest⟩ := hoptimal.cost
    -- The cut into halves has weight 4.
    obtain ⟨cost', hhalves, hworse⟩ := hbest #[0, 0, 1, 1] (by decide)
    have hfour : (complete 4 : EdgeList Rat).toGraph.cutWeight #[0, 0, 1, 1] = .ok 4 := by
      decide +kernel
    obtain rfl : 4 = cost' := Except.ok.inj (hfour.symm.trans hhalves)
    exact ⟨_, scope', cost, hcompute, hcost, by simpa using hworse, sizes, hsizes,
      hbalanced 0 (by decide) 1 (by decide)⟩
  · obtain ⟨g, hbuild, hstar⟩ := hall.2 [1, 3] (by decide) (by decide) (by decide)
    obtain rfl : (weightedStar [1, 3]).toGraph = g :=
      Except.ok.inj ((EdgeList.build_weightedStar [1, 3]).symm.trans hbuild)
    obtain ⟨outcome, w, c, scope', hcompute, -, hcost, hapart⟩ :=
      hstar (fun _ => star.partitions.reverse) star.workspace ⟨#[0, 0, 0], #[3, 0], .worst⟩
        scope (fun _ => List.reverse_perm _) ⟨by decide +kernel, by decide +kernel⟩
        ⟨by decide, by decide⟩ hnever
    have hweight : (weightedStar [1, 3] : EdgeList Rat).toGraph.totalEdgeWeight = 4 := by
      decide +kernel
    rw [hweight] at hcost
    exact ⟨_, scope', hcompute, hcost, hapart 1 (by decide)⟩

end

end KCut.LocalSearch
