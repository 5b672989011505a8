import KCut.Proofs.LocalSearch.Greedy

/-!
# KCut.Proofs.LocalSearch.GreedyRound

A whole second phase as a greedy pass, and what the pass has done to the
assignment that it started from.

Resetting the marks forgets every former round (`resetMarks_eq`), so a phase
starts where a greedy pass starts; visit by visit it then goes the same way
(`swapIn_refines`). In the end a node has left its community iff it has moved,
and it went by its best move at the start (`GreedyState.Since`).
-/

namespace KCut.LocalSearch

variable {α : Type} [Weight α]

/-! ### Since the start of a pass -/

/-- What has become of an assignment `a` in a greedy pass: a node that has not
moved is where it was, and one that has is where its best move leads. -/
structure GreedyState.Since (ls : LocalSearch α) (table : Array α) (a : Assignment)
    (s : GreedyState) : Prop where
  stays : ∀ {v : Nat}, v ∉ s.moved → s.assignment.community v = a.community v
  moves : ∀ {v : Nat}, v ∈ s.moved → s.assignment.community v < ls.k ∧
    ls.IsBestMove table v (a.community v) (s.assignment.community v)

section

variable {ls : LocalSearch α} {table : Array α} {a : Assignment} {s : GreedyState}
  {done : List Nat} {v : Nat}

theorem GreedyState.Since.start (t : Tally) : Since ls table a ⟨a, t, []⟩ where
  stays _ := rfl
  moves h := absurd h List.not_mem_nil

/-- The nodes that have moved are those whose community has changed. -/
theorem GreedyState.Since.mem_moved_iff (h : s.Since ls table a) :
    v ∈ s.moved ↔ s.assignment.community v ≠ a.community v :=
  ⟨fun hmem => (h.moves hmem).2.1, fun hne => by_contra fun hmem => hne (h.stays hmem)⟩

theorem GreedyState.Since.move (h : s.Since ls table a) (hv : v < s.assignment.size)
    (hnew : v ∉ s.moved) {c : Nat} (hc : c < ls.k)
    (hbest : ls.IsBestMove table v (s.assignment.community v) c) :
    (s.move v c).Since ls table a := by
  have hcommunity := Assignment.community_setIfInBounds hv c
  constructor
  · intro u hu
    obtain ⟨huv, humem⟩ := not_or.1 (List.mem_cons.not.1 hu)
    rw [GreedyState.move, hcommunity, if_neg huv]
    exact h.stays humem
  · intro u hu
    rw [GreedyState.move, hcommunity]
    by_cases huv : u = v
    · rw [if_pos huv, huv, ← h.stays hnew]
      exact ⟨hc, hbest⟩
    · rw [if_neg huv]
      exact h.moves ((List.mem_cons.1 hu).resolve_left huv)

theorem GreedyState.Since.visit [Weight.Ordered α] (h : s.Since ls table a)
    (sound : s.Sound ls done) (hv : v < ls.graph.nodeCount) (hnew : v ∉ done)
    (hsize : table.size = ls.graph.nodeCount * ls.k) :
    (ls.greedyVisit table s v).Since ls table a := by
  unfold greedyVisit
  split
  · next hmay =>
    obtain ⟨c, -, htarget, hc, hbest⟩ := target_lt hmay hsize hv
    rw [htarget]
    exact h.move (sound.legal.size_eq ▸ hv) (fun hmem => hnew (sound.moved_done v hmem).1) hc hbest
  · exact h

end

/-! ### Whole passes -/

section

variable {ls : LocalSearch α} {table : Array α} {a : Assignment} {t : Tally}

omit [Weight α] in
theorem GreedyState.Sound.start (ha : a.Legal ls.graph.nodeCount ls.k) (ht : t.Agrees a ls.k) :
    Sound ls [] ⟨a, t, []⟩ where
  legal := ha
  agrees := ht
  moved_done _ h := absurd h List.not_mem_nil
  nodup := List.nodup_nil
  apart _ h := absurd h List.not_mem_nil

theorem greedyPass_concat (nodes : List Nat) (v : Nat) (s : GreedyState) :
    ls.greedyPass table (nodes ++ [v]) s =
      ls.greedyVisit table (ls.greedyPass table nodes s) v := by
  rw [greedyPass, List.foldl_append]
  rfl

/-- A greedy pass over different nodes keeps what each visit of a new node keeps. -/
theorem greedyPass_keeps {I : List Nat → GreedyState → Prop} {s : GreedyState} (start : I [] s)
    (visit : ∀ {done : List Nat} {s : GreedyState} {v : Nat}, v < ls.graph.nodeCount → v ∉ done →
      I done s → I (done ++ [v]) (ls.greedyVisit table s v))
    {nodes : List Nat} (hnodup : nodes.Nodup) (hlt : ∀ v ∈ nodes, v < ls.graph.nodeCount) :
    I nodes (ls.greedyPass table nodes s) := by
  -- By the node that is visited last, since the invariant is about what has been done.
  induction nodes using List.reverseRecOn with
  | nil => exact start
  | append_singleton nodes v ih =>
      rw [List.nodup_append] at hnodup
      rw [greedyPass_concat]
      have hnew : v ∉ nodes := fun hmem => hnodup.2.2 v hmem v (List.mem_singleton.2 rfl) rfl
      exact visit (hlt v (List.mem_append_right _ (List.mem_singleton.2 rfl))) hnew
        (ih hnodup.1 fun u hu => hlt u (List.mem_append_left _ hu))

/-- What is known of a greedy pass at any moment. -/
theorem greedyPass_sound [Weight.Ordered α] (ready : ls.Ready)
    (hsize : table.size = ls.graph.nodeCount * ls.k) (ha : a.Legal ls.graph.nodeCount ls.k)
    (ht : t.Agrees a ls.k) {nodes : List Nat} (hnodup : nodes.Nodup)
    (hlt : ∀ v ∈ nodes, v < ls.graph.nodeCount) :
    (ls.greedyPass table nodes ⟨a, t, []⟩).Sound ls nodes ∧
      (ls.greedyPass table nodes ⟨a, t, []⟩).Since ls table a :=
  greedyPass_keeps (I := fun done s => s.Sound ls done ∧ s.Since ls table a)
    ⟨.start ha ht, .start t⟩
    (fun hv hnew h => ⟨h.1.visit hv hnew hsize ready.nodeCount_lt, h.2.visit h.1 hv hnew hsize⟩)
    hnodup hlt

/-- A greedy pass takes no node from a community that is not above its minimum. -/
theorem greedyPass_spares [Weight.Ordered α] (ready : ls.Ready)
    (hsize : table.size = ls.graph.nodeCount * ls.k) (ha : a.Legal ls.graph.nodeCount ls.k)
    (ht : t.Agrees a ls.k) {nodes : List Nat} (hnodup : nodes.Nodup)
    (hlt : ∀ v ∈ nodes, v < ls.graph.nodeCount) :
    Assignment.Spares ls.minSizes ls.k a (ls.greedyPass table nodes ⟨a, t, []⟩).assignment := by
  have hkeeps : (ls.greedyPass table nodes ⟨a, t, []⟩).Sound ls nodes ∧
      Assignment.Spares ls.minSizes ls.k a (ls.greedyPass table nodes ⟨a, t, []⟩).assignment :=
    greedyPass_keeps
      (I := fun done s => s.Sound ls done ∧ Assignment.Spares ls.minSizes ls.k a s.assignment)
      ⟨.start ha ht, .refl a⟩
      (fun hv hnew h => ⟨h.1.visit hv hnew hsize ready.nodeCount_lt,
        h.2.trans (h.1.spares_visit hv)⟩) hnodup hlt
  exact hkeeps.2

/-! ### Passes without a move -/

theorem mem_moved_greedyPass {nodes : List Nat} {s : GreedyState} {u : Nat} (hu : u ∈ s.moved) :
    u ∈ (ls.greedyPass table nodes s).moved := by
  induction nodes generalizing s with
  | nil => exact hu
  | cons v rest ih =>
      apply ih
      unfold greedyVisit
      split
      · exact List.mem_cons_of_mem v hu
      · exact hu

/-- A pass without a move has met no node that may move. -/
theorem not_mayMove_of_moved_eq_nil {nodes : List Nat} {s : GreedyState}
    (h : (ls.greedyPass table nodes s).moved = []) : ∀ v ∈ nodes, ¬ ls.MayMove table s v := by
  induction nodes with
  | nil => simp
  | cons v rest ih =>
      have hpass : ls.greedyPass table (v :: rest) s =
          ls.greedyPass table rest (ls.greedyVisit table s v) := rfl
      have hstays : ¬ ls.MayMove table s v := by
        intro hmay
        have hmoved : v ∈ (ls.greedyVisit table s v).moved := by
          rw [greedyVisit, if_pos hmay]
          exact List.mem_cons_self
        have hlater : v ∈ (ls.greedyPass table rest (ls.greedyVisit table s v)).moved :=
          mem_moved_greedyPass hmoved
        rw [← hpass, h] at hlater
        exact absurd hlater List.not_mem_nil
      -- The visit has changed nothing, so the rest of the pass starts from the same state.
      rw [hpass, greedyVisit, if_neg hstays] at h
      intro u hu
      cases List.mem_cons.1 hu with
      | inl heq => exact heq ▸ hstays
      | inr hrest => exact ih h u hrest

/-- **A pass that meets no node that may move** leaves everything as it was. -/
theorem greedyPass_eq_self {nodes : List Nat} {s : GreedyState}
    (h : ∀ v ∈ nodes, ¬ ls.MayMove table s v) : ls.greedyPass table nodes s = s := by
  induction nodes with
  | nil => rfl
  | cons v rest ih =>
      show ls.greedyPass table rest (ls.greedyVisit table s v) = s
      rw [greedyVisit, if_neg (h v List.mem_cons_self)]
      exact ih fun u hu => h u (List.mem_cons_of_mem v hu)

/-! ### The marks of a pass -/

/-- The marks of a round that starts, whatever the round before left behind. -/
theorem resetMarks_eq (ready : ls.Ready) {marks : Array Mark}
    (hmarks : marks.size = ls.graph.nodeCount) :
    ∃ marks', ls.resetMarks marks = .ok marks' ∧ marks'.size = ls.graph.nodeCount ∧
      ∀ {u : Nat}, u < ls.graph.nodeCount → marks'[u]? = some .untouched := by
  obtain ⟨marks', hreset, hsize, huntouched⟩ :
      ∃ marks', ls.resetMarks marks = .ok marks' ∧ marks'.size = ls.graph.nodeCount ∧
        ∀ u ∈ List.range ls.graph.nodeCount, marks'[u]? = some .untouched := by
    rw [resetMarks, foldlM_flatMap, ready.nodes_eq]
    refine foldlM_yields (fun done (m : Array Mark) =>
      m.size = ls.graph.nodeCount ∧ ∀ u ∈ done, m[u]? = some Mark.untouched)
      ⟨hmarks, fun u hu => absurd hu List.not_mem_nil⟩ ?_
    intro done v rest m hl hinv
    obtain ⟨hm, hdone⟩ := hinv
    have hv : v < m.size := by
      rw [hm, ← List.mem_range, hl]
      exact List.mem_append_right _ List.mem_cons_self
    refine ⟨_, Buffer.write_eq_ok hv _, by rw [Array.size_setIfInBounds, hm], ?_⟩
    intro u hu
    rw [Array.getElem?_setIfInBounds]
    by_cases hvu : v = u
    · rw [if_pos hvu, if_pos hv]
    · rw [if_neg hvu]
      exact hdone u ((List.mem_append.1 hu).resolve_right fun h =>
        hvu (List.mem_singleton.1 h).symm)
  exact ⟨marks', hreset, hsize, fun hu => huntouched _ (List.mem_range.2 hu)⟩

omit [Weight α] in
theorem SwapState.Follows.start {marks : Array Mark} (hmarks : marks.size = ls.graph.nodeCount)
    (huntouched : ∀ {u : Nat}, u < ls.graph.nodeCount → marks[u]? = some .untouched) :
    Follows ls ⟨a, t, marks, false, 0⟩ ⟨a, t, []⟩ where
  assignment_eq := rfl
  tally_eq := rfl
  moved_eq := rfl
  changed_eq := rfl
  size_marks := hmarks
  marks_eq hu := by simp [huntouched hu, markOf]

variable [Weight.Ordered α]

/-- **The second phase is a greedy pass**, after any part of it. -/
theorem visits_refine (ready : ls.Ready) (hsize : table.size = ls.graph.nodeCount * ls.k)
    (ha : a.Legal ls.graph.nodeCount ls.k) (ht : t.Agrees a ls.k) {nodes : List Nat}
    (hnodup : nodes.Nodup) (hlt : ∀ v ∈ nodes, v < ls.graph.nodeCount) {s : SwapState}
    (hs : s.Follows ls ⟨a, t, []⟩) :
    ∃ s', nodes.foldlM (ls.visit table) s = .ok s' ∧
      s'.Follows ls (ls.greedyPass table nodes ⟨a, t, []⟩) := by
  -- The greedy pass is sound at every moment, which is what a visit needs.
  obtain ⟨s', hvisits, hfollows, -⟩ := foldlM_yields_nodup
    (f := ls.visit table) (fun done (s : SwapState) =>
      s.Follows ls (ls.greedyPass table done ⟨a, t, []⟩) ∧
        (ls.greedyPass table done ⟨a, t, []⟩).Sound ls done) hnodup ⟨hs, .start ha ht⟩ (by
    intro done v s hmem hnew h
    obtain ⟨hfollows, sound⟩ := h
    obtain ⟨s', hvisit, hfollows'⟩ :=
      visit_refines hfollows ready sound (hlt v hmem) hnew hsize
    rw [greedyPass_concat]
    exact ⟨s', hvisit, hfollows', sound.visit (hlt v hmem) hnew hsize ready.nodeCount_lt⟩)
  exact ⟨s', hvisits, hfollows⟩

omit [Weight.Ordered α] in
theorem swapIn_eq_foldlM (order : List Partition) (s : SwapState) :
    ls.swapIn table order s = (order.flatMap Partition.nodes).foldlM (ls.visit table) s :=
  foldlM_flatMap _ _ _ _

end

/-! ### Backing off -/

/-- The visit of a node that has not been touched would end by backing off: one
of its neighbors is moving when it locks them. -/
def BacksOff (ls : LocalSearch α) (s : SwapState) (v : Nat) : Prop :=
  s.marks[v]? = some .untouched ∧ ∃ arcs marks, ls.incident v = .ok arcs ∧
    lockNeighbors v arcs (s.marks.setIfInBounds v .swapping) = .ok (false, marks)

theorem SwapState.Follows.not_backsOff {ls : LocalSearch α} {s : SwapState} {r : GreedyState}
    {v : Nat} (h : s.Follows ls r) (ready : ls.Ready) (hv : v < ls.graph.nodeCount) :
    ¬ ls.BacksOff s v := by
  intro hback
  obtain ⟨hmark, arcs, marks, harcs, hlock⟩ := hback
  rw [h.marks_eq hv, Option.some.injEq] at hmark
  obtain ⟨marks', hfree, -⟩ := h.lock ready hv hmark
  rw [ready.incident_eq hv, Except.ok.injEq] at harcs
  rw [← harcs, hfree] at hlock
  exact nomatch hlock

/-! ### The round -/

/-- **The marks implement the plain greedy pass.** Whatever the marks held
before, the second phase leaves the same assignment, the same tally and the same
counts as the greedy pass over the nodes in the order of the visited blocks. The
nodes it moved are those that changed their community, no two of them are
linked, and no visit ends by backing off. -/
theorem swapIn_eq_greedyPass [Weight.Ordered α] {l : EdgeList α} {g : Graph α}
    (hbuild : l.build = .ok g) (hword : g.nodeCount < Tally.modulus) {ls : LocalSearch α}
    {objective : Objective} {k concurrency minBatch : Nat} {minSizes : Array Nat}
    (hls : ls = .new g objective k minSizes concurrency minBatch) (hmin : minSizes.size = k)
    {order : List Partition} (horder : order.Perm ls.partitions) {table : Array α}
    (htable : table.size = g.nodeCount * k) {a : Assignment} (ha : a.Legal g.nodeCount k)
    {t : Tally} (ht : t.Agrees a k) {marks : Array Mark} (hmarks : marks.size = g.nodeCount) :
    ∃ marks₀ s, ls.resetMarks marks = .ok marks₀ ∧
      ls.swapIn table order ⟨a, t, marks₀, false, 0⟩ = .ok s ∧
      let nodes := order.flatMap Partition.nodes
      let r := ls.greedyPass table nodes ⟨a, t, []⟩
      (s.assignment = r.assignment ∧ s.tally = r.tally ∧ s.moved = r.moved.length ∧
        (s.changed = true ↔ r.moved ≠ [])) ∧
      (r.moved.Nodup ∧
        ∀ v < g.nodeCount, v ∈ r.moved ↔ s.assignment.community v ≠ a.community v) ∧
      (∀ u ∈ r.moved, ∀ v ∈ r.moved, ¬ g.Linked u v) ∧
      ∀ before v after, nodes = before ++ v :: after →
        ∃ s', before.foldlM (ls.visit table) ⟨a, t, marks₀, false, 0⟩ = .ok s' ∧
          ¬ ls.BacksOff s' v := by
  have ready : ls.Ready := by
    rw [hls]
    exact ready_new (EdgeList.wellFormed_of_build hbuild) hword objective hmin concurrency minBatch
  obtain rfl : ls.graph = g := by rw [hls]; rfl
  obtain rfl : ls.k = k := by rw [hls]; rfl
  have hnodup := ready.nodup_nodes horder
  have hlt := ready.nodes_lt horder
  obtain ⟨marks₀, hreset, hsize₀, huntouched⟩ := resetMarks_eq ready hmarks
  have start : SwapState.Follows ls ⟨a, t, marks₀, false, 0⟩ ⟨a, t, []⟩ :=
    .start hsize₀ huntouched
  obtain ⟨s, hswap, hfollows⟩ := visits_refine ready htable ha ht hnodup hlt start
  obtain ⟨sound, since⟩ := greedyPass_sound ready htable ha ht hnodup hlt
  refine ⟨marks₀, s, hreset, by rw [swapIn_eq_foldlM, hswap], ⟨hfollows.assignment_eq,
    hfollows.tally_eq, hfollows.moved_eq, ?_⟩, ⟨sound.nodup, fun v _ => ?_⟩, sound.apart, ?_⟩
  · rw [hfollows.changed_eq, Bool.not_eq_true', List.isEmpty_eq_false_iff]
  · rw [hfollows.assignment_eq]
    exact since.mem_moved_iff
  · -- The marks follow the greedy pass at every moment, so none of the visits backs off.
    intro before v after hnodes
    rw [hnodes] at hnodup hlt
    obtain ⟨s', hbefore, hfollows'⟩ :=
      visits_refine ready htable ha ht (List.nodup_append.1 hnodup).1
        (fun u hu => hlt u (List.mem_append_left _ hu)) start
    exact ⟨s', hbefore, hfollows'.not_backsOff ready
      (hlt v (List.mem_append_right _ List.mem_cons_self))⟩

/-- In the directed triangle with all nodes in one community, visited from the
last block to the first, node 1 moves and keeps node 0 from moving too. -/
theorem swapIn_triangle :
    let ls : LocalSearch Rat :=
      .new (EdgeList.triangle false).toGraph .maximize 2 #[1, 0] 3 1
    ∃ marks₀ s, ls.resetMarks #[.swapping, .shouldNotSwap, .untouched] = .ok marks₀ ∧
      ls.swapIn #[4, 0, 2, 0, 0, 0] ls.partitions.reverse
        ⟨#[0, 0, 0], #[3, 0], marks₀, false, 0⟩ = .ok s ∧
      s.assignment = #[0, 1, 0] ∧ s.tally = #[2, 1] ∧ s.moved = 1 ∧ s.changed = true := by
  intro ls
  have htable : (#[4, 0, 2, 0, 0, 0] : Array Rat).size =
      (EdgeList.triangle false).toGraph.nodeCount * 2 := rfl
  have hlegal : Assignment.Legal #[0, 0, 0] (EdgeList.triangle false).toGraph.nodeCount 2 := by
    decide
  have hagrees : Tally.Agrees #[3, 0] #[0, 0, 0] 2 := by decide
  have hmarks : #[Mark.swapping, .shouldNotSwap, .untouched].size =
      (EdgeList.triangle false).toGraph.nodeCount := rfl
  obtain ⟨marks₀, s, hreset, hswap, ⟨hassignment, htally, hmoved, hchanged⟩, -⟩ :=
    swapIn_eq_greedyPass (EdgeList.build_triangle false) (by decide) (Eq.refl ls) rfl
      (List.reverse_perm ls.partitions) htable hlegal hagrees hmarks
  have hpass : ls.greedyPass #[4, 0, 2, 0, 0, 0] (ls.partitions.reverse.flatMap Partition.nodes)
      ⟨#[0, 0, 0], #[3, 0], []⟩ = ⟨#[0, 1, 0], #[2, 1], [1]⟩ := by
    decide +kernel
  rw [hpass] at hassignment htally hmoved hchanged
  exact ⟨marks₀, s, hreset, hswap, hassignment, htally, hmoved, hchanged.2 (by decide)⟩

end KCut.LocalSearch
