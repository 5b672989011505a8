import KCut.Proofs.Candidate
import KCut.Proofs.LocalSearch.BestMove
import KCut.Proofs.LocalSearch.Ready

/-!
# KCut.Proofs.LocalSearch.Greedy

The second phase of a round as a plain greedy pass.

The greedy pass has no marks. It remembers which nodes have moved, and a node
stays where it is as soon as one of its neighbors is among them. The marks of the
second phase say the same in another way: a node is `swapping` iff it has moved,
and `shouldNotSwap` iff a neighbor of it has (`markOf`). A node that claims
itself is untouched, so by symmetry of incidence none of its neighbors is moving
and it never backs off. The two passes hence go through the same assignments
(`visit_refines`, `swapIn_refines`).
-/

namespace KCut.LocalSearch

variable {α : Type} [Weight α]

/-! ### The greedy pass -/

structure GreedyState where
  assignment : Assignment
  tally : Tally
  /-- The nodes that have moved, the last one first. -/
  moved : List Nat
deriving Repr, DecidableEq

/-- A node moves if some other community gives a gain that is better than none,
its own community has more nodes than its minimum, and no neighbor has moved. -/
def MayMove (ls : LocalSearch α) (table : Array α) (s : GreedyState) (v : Nat) : Prop :=
  (∃ c < ls.k, c ≠ s.assignment.community v ∧
      ls.objective.better (ls.moveGain table v (s.assignment.community v) c) 0 = true) ∧
    ls.minSizes.getD (s.assignment.community v) 0 < s.tally.getD (s.assignment.community v) 0 ∧
    ∀ u ∈ s.moved, ¬ ls.graph.Linked u v

instance (ls : LocalSearch α) (table : Array α) (s : GreedyState) (v : Nat) :
    Decidable (ls.MayMove table s v) :=
  inferInstanceAs (Decidable (_ ∧ _ ∧ _))

/-- The community that a node moves to. -/
def target (ls : LocalSearch α) (table : Array α) (s : GreedyState) (v : Nat) : Nat :=
  (ls.bestMove? table v (s.assignment.community v)).getD (s.assignment.community v)

def GreedyState.move (s : GreedyState) (v target : Nat) : GreedyState where
  assignment := s.assignment.setIfInBounds v target
  tally := (s.tally.modify (s.assignment.community v) (· - 1)).modify target (· + 1)
  moved := v :: s.moved

def greedyVisit (ls : LocalSearch α) (table : Array α) (s : GreedyState) (v : Nat) :
    GreedyState :=
  if ls.MayMove table s v then s.move v (ls.target table s v) else s

/-- Visits some nodes in order. -/
def greedyPass (ls : LocalSearch α) (table : Array α) (nodes : List Nat) (s : GreedyState) :
    GreedyState :=
  nodes.foldl (ls.greedyVisit table) s

/-! ### What a greedy pass keeps -/

/-- The invariant of a greedy pass after the nodes in `done`. -/
structure GreedyState.Sound (ls : LocalSearch α) (done : List Nat) (s : GreedyState) : Prop where
  legal : s.assignment.Legal ls.graph.nodeCount ls.k
  agrees : s.tally.Agrees s.assignment ls.k
  moved_done : ∀ u ∈ s.moved, u ∈ done ∧ u < ls.graph.nodeCount
  nodup : s.moved.Nodup
  apart : ∀ u ∈ s.moved, ∀ v ∈ s.moved, ¬ ls.graph.Linked u v

section

variable {ls : LocalSearch α} {table : Array α} {s : GreedyState} {done : List Nat} {v : Nat}

theorem target_lt (hmay : ls.MayMove table s v) (hsize : table.size = ls.graph.nodeCount * ls.k)
    (hv : v < ls.graph.nodeCount) [Weight.Ordered α] :
    ∃ c, ls.bestMove? table v (s.assignment.community v) = some c ∧ ls.target table s v = c ∧
      c < ls.k ∧ ls.IsBestMove table v (s.assignment.community v) c := by
  obtain ⟨c, hc⟩ := Option.isSome_iff_exists.1
    ((bestMove?_isSome_iff hsize hv).2 hmay.1)
  exact ⟨c, hc, by rw [target, hc, Option.getD_some], bestMove?_spec hc⟩

omit [Weight α] in
/-- The tally of the greedy pass counts like the checked one. -/
theorem GreedyState.Sound.move_tally (h : s.Sound ls done) (hv : v < ls.graph.nodeCount) {c : Nat}
    (hc : c < ls.k) (hword : ls.graph.nodeCount < Tally.modulus) :
    s.tally.move (s.assignment.community v) c = .ok (s.move v c).tally ∧
      (s.move v c).tally.Agrees (s.move v c).assignment ls.k := by
  have hsize : v < s.assignment.size := h.legal.size_eq ▸ hv
  have hword' : s.assignment.size < Tally.modulus := h.legal.size_eq ▸ hword
  obtain ⟨t, hmove, hagrees⟩ :=
    h.agrees.move hsize (h.legal.community_lt hv) hc hword'
  have heq : (s.move v c).tally = t := by
    have hplain : (s.move v c).tally.Agrees (s.move v c).assignment ls.k := by
      refine ⟨by simp [GreedyState.move, h.agrees.size_eq], fun {d} hd => ?_⟩
      have hpos := Tally.count_community_pos hsize
      rw [GreedyState.move, Array.getElem?_modify, Array.getElem?_modify, h.agrees.getElem?_eq hd,
        Tally.count_setIfInBounds hsize]
      split <;> split <;> simp_all
    exact hplain.unique hagrees
  rw [heq]
  exact ⟨hmove, hagrees⟩

theorem GreedyState.Sound.visit [Weight.Ordered α] (h : s.Sound ls done)
    (hv : v < ls.graph.nodeCount) (hnew : v ∉ done)
    (hsize : table.size = ls.graph.nodeCount * ls.k) (hword : ls.graph.nodeCount < Tally.modulus) :
    (ls.greedyVisit table s v).Sound ls (done ++ [v]) := by
  have hsub : ∀ u ∈ s.moved, u ∈ done ++ [v] ∧ u < ls.graph.nodeCount := fun u hu =>
    ⟨List.mem_append_left _ (h.moved_done u hu).1, (h.moved_done u hu).2⟩
  unfold greedyVisit
  split
  · next hmay =>
    obtain ⟨c, -, htarget, hc, -⟩ := target_lt hmay hsize hv
    rw [htarget]
    refine ⟨h.legal.setIfInBounds hv hc, (h.move_tally hv hc hword).2, ?_, ?_, ?_⟩
    · intro u hu
      rcases List.mem_cons.1 hu with rfl | hu
      · exact ⟨List.mem_append_right _ (List.mem_singleton.2 rfl), hv⟩
      · exact hsub u hu
    · exact List.nodup_cons.2 ⟨fun hmem => hnew (h.moved_done v hmem).1, h.nodup⟩
    · -- Only the new pairs are to be looked at, and no neighbor of `v` has moved.
      intro u humem w hwmem
      rcases List.mem_cons.1 humem with rfl | hu <;> rcases List.mem_cons.1 hwmem with rfl | hw
      · exact fun hlink => hlink.1 rfl
      · exact fun hlink => hmay.2.2 w hw hlink.symm
      · exact hmay.2.2 u hu
      · exact h.apart u hu w hw
  · exact ⟨h.legal, h.agrees, hsub, h.nodup, h.apart⟩

omit [Weight α] in
theorem GreedyState.Sound.tally_getD (h : s.Sound ls done) (hv : v < ls.graph.nodeCount) :
    s.tally.getD (s.assignment.community v) 0 = s.assignment.count (s.assignment.community v) := by
  rw [Array.getD_eq_getD_getElem?, h.agrees.getElem?_eq (h.legal.community_lt hv),
    Option.getD_some]

/-- Communities are left only while they are above their minimum. -/
theorem GreedyState.Sound.spares_visit (h : s.Sound ls done) (hv : v < ls.graph.nodeCount) :
    Assignment.Spares ls.minSizes ls.k s.assignment (ls.greedyVisit table s v).assignment := by
  unfold greedyVisit
  split
  · next hmay =>
    have hleast := hmay.2.1
    rw [h.tally_getD hv] at hleast
    exact .move (h.legal.size_eq ▸ hv) hleast
  · exact .refl _

end

/-! ### Marks -/

/-- The mark of a node, by the nodes that have moved. -/
def markOf (g : Graph α) (moved : List Nat) (u : Nat) : Mark :=
  if u ∈ moved then .swapping
  else if ∃ w ∈ moved, g.Linked w u then .shouldNotSwap
  else .untouched

omit [Weight α] in
theorem markOf_eq_untouched_iff {g : Graph α} {moved : List Nat} {u : Nat} (hu : u ∉ moved) :
    markOf g moved u = .untouched ↔ ∀ w ∈ moved, ¬ g.Linked w u := by
  unfold markOf
  rw [if_neg hu]
  split
  · next h =>
    obtain ⟨w, hw, hlink⟩ := h
    exact ⟨fun hcontra => (nomatch hcontra), fun hnone => absurd hlink (hnone w hw)⟩
  · next h => exact ⟨fun _ w hw hlink => h ⟨w, hw, hlink⟩, fun _ => rfl⟩

/-- What the marks hold after the neighbors of `v` have been locked. -/
def lockedMark (v : Nat) (arcs : List (Arc α)) (u : Nat) (m : Mark) : Mark :=
  if m = .untouched ∧ u ≠ v ∧ ∃ a ∈ arcs, a.target = u then .shouldNotSwap else m

section

omit [Weight α]

variable {v u : Nat} {a : Arc α} {arcs : List (Arc α)} {m : Mark}

theorem lockedMark_nil : lockedMark (α := α) v [] u m = m := by
  simp [lockedMark]

theorem lockedMark_of_ne_untouched (h : m ≠ .untouched) : lockedMark v arcs u m = m :=
  if_neg fun hcontra => h hcontra.1

theorem lockedMark_cons_of_ne (h : a.target ≠ u) :
    lockedMark v (a :: arcs) u m = lockedMark v arcs u m := by
  simp [lockedMark, h]

theorem lockedMark_cons_self (h : u ≠ v) (hau : a.target = u) :
    lockedMark v (a :: arcs) u .untouched = .shouldNotSwap := by
  simp [lockedMark, h, hau]

theorem lockedMark_cons_loop (h : a.target = v) :
    lockedMark v (a :: arcs) u m = lockedMark v arcs u m := by
  by_cases huv : u = v
  · simp [lockedMark, huv]
  · exact lockedMark_cons_of_ne fun hau => huv (hau.symm.trans h)

/-- Locking keeps the size, since it keeps which cells there are. -/
theorem size_eq_of_cells {marks marks' : Array Mark} {f : Nat → Mark → Mark}
    (hcells : ∀ u : Nat, marks'[u]? = marks[u]?.map (f u)) : marks'.size = marks.size := by
  have hnone : ∀ u : Nat, marks'.size ≤ u ↔ marks.size ≤ u := by
    intro u
    rw [← Array.getElem?_eq_none_iff, hcells u, Option.map_eq_none_iff, Array.getElem?_eq_none_iff]
  have hle := (hnone marks.size).2 (Nat.le_refl _)
  have hge := (hnone marks'.size).1 (Nat.le_refl _)
  exact Nat.le_antisymm hle hge

/-- Locking the neighbors of `v` gives the marks of `v` having moved. -/
theorem lockedMark_markOf {g : Graph α} {moved : List Nat}
    (hlinked : g.Linked u v ↔ u ≠ v ∧ ∃ a ∈ arcs, a.target = u) :
    lockedMark v arcs u (if u = v then .swapping else markOf g moved u) =
      markOf g (v :: moved) u := by
  unfold lockedMark markOf
  by_cases huv : u = v
  · simp [huv]
  by_cases humem : u ∈ moved
  · simp [huv, humem]
  have hlinkv : g.Linked v u ↔ ∃ a ∈ arcs, a.target = u :=
    ⟨fun hlink => (hlinked.1 hlink.symm).2, fun harc => (hlinked.2 ⟨huv, harc⟩).symm⟩
  -- The mark of `u` changes only if no other moved node has locked it before.
  by_cases hold : ∃ w ∈ moved, g.Linked w u
  · simp [huv, humem, hold]
  · simp [huv, humem, hold, hlinkv]

/-- A node none of whose neighbors is moving locks all of them. -/
theorem lockNeighbors_eq {marks : Array Mark} (htarget : ∀ a ∈ arcs, a.target < marks.size)
    (hfree : ∀ a ∈ arcs, a.target ≠ v → marks[a.target]? ≠ some .swapping) :
    ∃ marks', lockNeighbors v arcs marks = .ok (true, marks') ∧
      ∀ u : Nat, marks'[u]? = marks[u]?.map (lockedMark v arcs u) := by
  induction arcs generalizing marks with
  | nil =>
      refine ⟨marks, rfl, fun u => ?_⟩
      cases marks[u]? with
      | none => rfl
      | some m => rw [Option.map_some, lockedMark_nil]
  | cons a rest ih =>
      have ha := htarget a List.mem_cons_self
      have hrest : ∀ b ∈ rest, b.target < marks.size :=
        fun b hb => htarget b (List.mem_cons_of_mem a hb)
      have hfreerest : ∀ b ∈ rest, b.target ≠ v → marks[b.target]? ≠ some .swapping :=
        fun b hb => hfree b (List.mem_cons_of_mem a hb)
      unfold lockNeighbors
      by_cases hself : a.target = v
      · -- A loop is passed over.
        rw [if_pos hself]
        obtain ⟨marks', hlock, hmarks⟩ := ih hrest hfreerest
        refine ⟨marks', hlock, fun u => ?_⟩
        rw [hmarks u]
        exact congrArg (Option.map · marks[u]?) (funext fun m => (lockedMark_cons_loop hself).symm)
      rw [if_neg hself, Buffer.read_eq_ok ha]
      have hself? : marks[a.target]? = some marks[a.target] := Array.getElem?_eq_getElem ha
      cases hmark : marks[a.target] with
      | swapping =>
          exact absurd (by rw [hself?, hmark]) (hfree a List.mem_cons_self hself)
      | shouldNotSwap =>
          obtain ⟨marks', hlock, hmarks⟩ := ih hrest hfreerest
          refine ⟨marks', hlock, fun u => ?_⟩
          rw [hmarks u]
          by_cases hau : a.target = u
          · rw [← hau, hself?, hmark, Option.map_some, Option.map_some,
              lockedMark_of_ne_untouched (by decide), lockedMark_of_ne_untouched (by decide)]
          · exact congrArg (Option.map · marks[u]?)
              (funext fun m => (lockedMark_cons_of_ne hau).symm)
      | untouched =>
          simp only [Buffer.write_eq_ok ha]
          have hfreenext : ∀ b ∈ rest, b.target ≠ v →
              (marks.setIfInBounds a.target .shouldNotSwap)[b.target]? ≠ some .swapping := by
            intro b hb hbv
            rw [Array.getElem?_setIfInBounds]
            split
            · simp
            · exact hfreerest b hb hbv
          have hrestnext : ∀ b ∈ rest,
              b.target < (marks.setIfInBounds a.target .shouldNotSwap).size := by
            simpa using hrest
          obtain ⟨marks', hlock, hmarks⟩ := ih hrestnext hfreenext
          refine ⟨marks', hlock, fun u => ?_⟩
          rw [hmarks u, Array.getElem?_setIfInBounds]
          by_cases hau : a.target = u
          · rw [if_pos hau, if_pos ha, ← hau, hself?, hmark, Option.map_some, Option.map_some,
              lockedMark_of_ne_untouched (by decide), lockedMark_cons_self hself rfl]
          · rw [if_neg hau]
            exact congrArg (Option.map · marks[u]?)
              (funext fun m => (lockedMark_cons_of_ne hau).symm)

end

/-! ### The marks follow the greedy pass -/

/-- A state of the second phase that has come as far as a greedy pass. -/
structure SwapState.Follows (ls : LocalSearch α) (s : SwapState) (r : GreedyState) : Prop where
  assignment_eq : s.assignment = r.assignment
  tally_eq : s.tally = r.tally
  moved_eq : s.moved = r.moved.length
  changed_eq : s.changed = !r.moved.isEmpty
  size_marks : s.marks.size = ls.graph.nodeCount
  marks_eq : ∀ {u : Nat}, u < ls.graph.nodeCount → s.marks[u]? = some (markOf ls.graph r.moved u)

section

variable {ls : LocalSearch α} {s : SwapState} {r : GreedyState} {done : List Nat} {v : Nat}

/-- **No claim backs off**: an untouched node locks all its neighbors. -/
theorem SwapState.Follows.lock (h : s.Follows ls r) (ready : ls.Ready)
    (hv : v < ls.graph.nodeCount)
    (huntouched : markOf ls.graph r.moved v = .untouched) :
    ∃ marks, lockNeighbors v (ls.graph.incidents v) (s.marks.setIfInBounds v .swapping) =
        .ok (true, marks) ∧ marks.size = ls.graph.nodeCount ∧
      ∀ {u : Nat}, u < ls.graph.nodeCount →
        marks[u]? = some (markOf ls.graph (v :: r.moved) u) := by
  have hvmoved : v ∉ r.moved := fun hmem => by
    rw [markOf, if_pos hmem] at huntouched
    exact nomatch huntouched
  have hnone := (markOf_eq_untouched_iff hvmoved).1 huntouched
  have hsize : (s.marks.setIfInBounds v .swapping).size = ls.graph.nodeCount := by
    rw [Array.size_setIfInBounds, h.size_marks]
  have hget : ∀ {u : Nat}, u < ls.graph.nodeCount →
      (s.marks.setIfInBounds v .swapping)[u]? =
        some (if u = v then .swapping else markOf ls.graph r.moved u) := by
    intro u hu
    rw [Array.getElem?_setIfInBounds, h.marks_eq hu, h.size_marks]
    by_cases huv : v = u
    · rw [if_pos huv, if_pos hv, if_pos huv.symm]
    · rw [if_neg huv, if_neg (Ne.symm huv)]
  have htarget := ready.graph.incidents_lt hv
  obtain ⟨marks, hlock, hmarks⟩ := lockNeighbors_eq (v := v) (by rw [hsize]; exact htarget)
    (fun a ha hav => by
      -- A moving neighbor would have kept `v` from being untouched.
      rw [hget (htarget a ha), if_neg hav]
      intro hswap
      have hmem : a.target ∈ r.moved := by
        by_contra hmem
        rw [markOf, if_neg hmem, Option.some.injEq] at hswap
        split at hswap <;> exact nomatch hswap
      exact hnone a.target hmem
        ((ready.graph.linked_iff_mem_incidents hv (htarget a ha)).2 ⟨hav, a, ha, rfl⟩))
  refine ⟨marks, hlock, ?_, fun {u} hu => ?_⟩
  · rw [size_eq_of_cells hmarks, hsize]
  · rw [hmarks u, hget hu, Option.map_some,
      lockedMark_markOf (ready.graph.linked_iff_mem_incidents hv hu)]

/-- A claim of an untouched node moves it. -/
theorem claim_refines (h : s.Follows ls r) (ready : ls.Ready) (sound : r.Sound ls done)
    (hv : v < ls.graph.nodeCount) (huntouched : markOf ls.graph r.moved v = .untouched) {c : Nat}
    (hc : c < ls.k) :
    ∃ s', ls.claim v (r.assignment.community v) c s = .ok s' ∧ s'.Follows ls (r.move v c) := by
  have hvsize : v < r.assignment.size := sound.legal.size_eq ▸ hv
  have hvmarks : v < s.marks.size := h.size_marks ▸ hv
  obtain ⟨marks, hlock, hmarksize, hmarks⟩ := h.lock ready hv huntouched
  have htally := (sound.move_tally hv hc ready.nodeCount_lt).1
  unfold claim
  rw [Buffer.write_eq_ok hvmarks, ok_bind, ready.incident_eq hv, ok_bind, hlock, ok_bind,
    h.tally_eq, h.assignment_eq]
  simp only [↓reduceIte]
  rw [htally, ok_bind, Assignment.set_eq hvsize, ok_bind]
  exact ⟨_, rfl, rfl, rfl, by simp [GreedyState.move, h.moved_eq], rfl, hmarksize, hmarks⟩

variable {table : Array α} [Weight.Ordered α]

/-- What the second phase looks at to decide whether a node moves. -/
theorem mayMove_iff (sound : r.Sound ls done) (hv : v < ls.graph.nodeCount) (hnew : v ∉ done)
    (hsize : table.size = ls.graph.nodeCount * ls.k) :
    ls.MayMove table r v ↔
      (ls.bestMove? table v (r.assignment.community v)).isSome = true ∧
        ¬ r.assignment.count (r.assignment.community v) ≤
          ls.minSizes.getD (r.assignment.community v) 0 ∧
        markOf ls.graph r.moved v = .untouched := by
  have hvmoved : v ∉ r.moved := fun hmem => hnew (sound.moved_done v hmem).1
  unfold MayMove
  rw [bestMove?_isSome_iff hsize hv, markOf_eq_untouched_iff hvmoved, sound.tally_getD hv,
    Nat.not_le]

/-- **One visit is one greedy visit.** -/
theorem visit_refines (h : s.Follows ls r) (ready : ls.Ready) (sound : r.Sound ls done)
    (hv : v < ls.graph.nodeCount) (hnew : v ∉ done)
    (hsize : table.size = ls.graph.nodeCount * ls.k) :
    ∃ s', ls.visit table s v = .ok s' ∧ s'.Follows ls (ls.greedyVisit table r v) := by
  have hvsize : v < r.assignment.size := sound.legal.size_eq ▸ hv
  have hcurrent := sound.legal.community_lt hv
  have hhere := extract_getElem? hsize hv hcurrent
  have hmay := mayMove_iff sound hv hnew hsize
  unfold visit greedyVisit target
  rw [h.assignment_eq, Assignment.get_eq hvsize, ok_bind, tableRow_eq hsize hv, ok_bind,
    Buffer.read, hhere, ok_bind]
  dsimp only
  rw [bestChoice_community hsize hv]
  cases hbest : ls.bestMove? table v (r.assignment.community v) with
  | none =>
      rw [Option.getD_none, if_pos rfl, if_neg fun hm => by simp [hbest] at hmay; exact hmay hm]
      exact ⟨s, rfl, h⟩
  | some c =>
      obtain ⟨hc, hcbest⟩ := bestMove?_spec hbest
      rw [Option.getD_some, if_neg hcbest.1, h.tally_eq, sound.agrees.get_eq hcurrent, ok_bind,
        ready.minSizes_read hcurrent, ok_bind]
      by_cases hleast : r.assignment.count (r.assignment.community v) ≤
          ls.minSizes.getD (r.assignment.community v) 0
      -- The community is at its minimum, and both passes leave the node there.
      · rw [if_pos hleast, if_neg fun hm => (hmay.1 hm).2.1 hleast]
        exact ⟨s, rfl, h⟩
      have hmark : Buffer.read s.marks v = .ok (markOf ls.graph r.moved v) := by
        rw [Buffer.read, h.marks_eq hv]
      rw [if_neg hleast, hmark, ok_bind]
      -- Only the mark is left to decide: it is untouched iff no neighbor has moved.
      by_cases huntouched : markOf ls.graph r.moved v = .untouched
      · rw [if_neg (not_not_intro huntouched),
          if_pos (hmay.2 ⟨by rw [hbest]; rfl, hleast, huntouched⟩)]
        exact claim_refines h ready sound hv huntouched hc
      · rw [if_pos huntouched, if_neg fun hm => huntouched (hmay.1 hm).2.2]
        exact ⟨s, rfl, h⟩

end

end KCut.LocalSearch
