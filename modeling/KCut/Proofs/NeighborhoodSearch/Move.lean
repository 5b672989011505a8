import Mathlib.Data.Set.Function
import Mathlib.InformationTheory.Hamming
import KCut.NeighborhoodSearch
import KCut.Proofs.Candidate
import KCut.Proofs.Random
import KCut.Proofs.Run

/-!
# KCut.Proofs.NeighborhoodSearch.Move

A perturbation is one legal move or nothing.

What the retries come to is said by `Attempted`, together with what they draw: as many nodes
as they may, all of which have to stay, or fewer of them, then a node that may move and the
shift to its new community. A move changes one node and two counters (`Moved`); a refusal
changes nothing but the stream. So the neighbor that a round searches is as many moves away
from the best candidate as the order of the round allows, and no community has been drained
below its minimum (`Displaced`).
-/

namespace KCut

/-- The number of nodes with another community. -/
def Assignment.distance (n : Nat) (a b : Assignment) : Nat :=
  hammingDist (fun v : Fin n => a.community v) fun v : Fin n => b.community v

/-- One cell makes one node differ. -/
theorem Assignment.distance_setIfInBounds_le (n : Nat) {a : Assignment} {v : Nat}
    (hv : v < a.size) (d : Nat) : Assignment.distance n a (a.setIfInBounds v d) ≤ 1 := by
  rw [distance, hammingDist, Finset.card_le_one]
  have hnode : ∀ u : Fin n, a.community u ≠ community (a.setIfInBounds v d) u → u.val = v := by
    intro u hu
    by_contra hne
    rw [community_setIfInBounds hv, if_neg hne] at hu
    exact hu rfl
  intro u hu u' hu'
  exact Fin.ext ((hnode u (Finset.mem_filter.1 hu).2).trans
    (hnode u' (Finset.mem_filter.1 hu').2).symm)

namespace NeighborhoodSearch

/-! ### Shifts -/

section

variable {k current shift : Nat}

/-- **Each other community is reached by one shift.** -/
theorem bijOn_shift (hcurrent : current < k) :
    Set.BijOn (fun shift => (current + shift) % k) (Set.Ico 1 k) {d | d < k ∧ d ≠ current} := by
  have hmod : ∀ shift < k, (current + shift) % k =
      if k ≤ current + shift then current + shift - k else current + shift := by
    intro shift hshift
    rw [Nat.add_mod_eq_ite, Nat.mod_eq_of_lt hcurrent, Nat.mod_eq_of_lt hshift]
  refine ⟨?_, ?_, ?_⟩
  · intro shift hshift
    obtain ⟨hpos, hlt⟩ := hshift
    refine ⟨Nat.mod_lt _ (by omega), ?_⟩
    dsimp only
    rw [hmod shift hlt]
    split <;> omega
  · intro shift hshift shift' hshift' hsame
    obtain ⟨hpos, hlt⟩ := hshift
    obtain ⟨hpos', hlt'⟩ := hshift'
    dsimp only at hsame
    rw [hmod shift hlt, hmod shift' hlt'] at hsame
    split at hsame <;> split at hsame <;> omega
  · intro d hd
    obtain ⟨hlt, hne⟩ := hd
    -- Around the end, if the community lies below the current one.
    refine ⟨if current < d then d - current else d + k - current, ?_, ?_⟩
    · constructor <;> split <;> omega
    · dsimp only
      rw [hmod _ (by split <;> omega)]
      split <;> split <;> omega

/-- The sum of two ids of up to `2 ^ 31` communities is a word. -/
theorem shifted_eq_ok (hid : k ≤ 2 ^ 31) (hcurrent : current < k) (hshift : shift < k) :
    shifted k current shift = .ok ((current + shift) % k) := by
  rw [shifted, if_pos (by omega)]

theorem shifted_cases (hcurrent : current < k) (hshift : shift < k) :
    shifted k current shift = .ok ((current + shift) % k) ∨
      2 ^ 31 < k ∧ ∃ sum, shifted k current shift = .error (.overflow sum) := by
  rcases Nat.lt_or_ge (2 ^ 31) k with hlarge | hid
  · rw [shifted]
    split
    · exact Or.inl rfl
    · exact Or.inr ⟨hlarge, _, rfl⟩
  · exact Or.inl (shifted_eq_ok hid hcurrent hshift)

end

variable {α : Type} {vns : NeighborhoodSearch} {n retries : Nat} {c c' c'' : Candidate α}

/-! ### Attempts -/

/-- The node has to stay: its community has no more nodes than its minimum, or there is no other
community. -/
def Stays (vns : NeighborhoodSearch) (c : Candidate α) (v : Nat) : Prop :=
  c.assignment.count (c.assignment.community v) ≤
    vns.minSizes.getD (c.assignment.community v) 0 ∨ vns.k < 2

instance (vns : NeighborhoodSearch) (c : Candidate α) (v : Nat) : Decidable (vns.Stays c v) :=
  inferInstanceAs (Decidable (_ ≤ _ ∨ _ < _))

/-- From `c` to `c'` the node `v` has moved to the community `target`, and nothing else has
changed but the two counters. -/
structure Moved (vns : NeighborhoodSearch) (c : Candidate α) (v target : Nat)
    (c' : Candidate α) : Prop where
  node_lt : v < c.assignment.size
  surplus : vns.minSizes.getD (c.assignment.community v) 0 <
    c.assignment.count (c.assignment.community v)
  target_lt : target < vns.k
  target_ne : target ≠ c.assignment.community v
  assignment_eq : c'.assignment = c.assignment.setIfInBounds v target
  size_tally : c'.tally.size = c.tally.size
  left_counter : c.tally.getD (c.assignment.community v) 0 =
    c'.tally.getD (c.assignment.community v) 0 + 1
  entered_counter : c'.tally.getD target 0 = c.tally.getD target 0 + 1
  other_counters : ∀ d, d ≠ c.assignment.community v → d ≠ target → c'.tally[d]? = c.tally[d]?
  cost_eq : c'.cost = c.cost
  sound : c'.Sound c.assignment.size vns.k

/-- What at most `retries` draws of a node come to, from a stream to the stream after them. -/
inductive Attempted (vns : NeighborhoodSearch) (c : Candidate α) (retries : Nat)
    (s : Random.Stream) : Bool × Candidate α → Random.Stream → Prop
  /-- All of them were made, and all drawn nodes have to stay. -/
  | refused (nodes : List Nat) {s' : Random.Stream}
      (hdraws : s.ranges (List.replicate retries (0, c.assignment.size)) = .ok (nodes, s'))
      (hstay : ∀ v ∈ nodes, v < c.assignment.size ∧ vns.Stays c v) :
      Attempted vns c retries s (false, c) s'
  /-- The last one of them fell on a node that may move, and its shift was drawn. -/
  | moved (nodes : List Nat) {v shift target : Nat} {c' : Candidate α} {s' : Random.Stream}
      (hdraws : s.ranges (List.replicate (nodes.length + 1) (0, c.assignment.size) ++
        [(1, vns.k)]) = .ok (nodes ++ [v, shift], s'))
      (hfewer : nodes.length < retries)
      (hstay : ∀ v ∈ nodes, v < c.assignment.size ∧ vns.Stays c v) (hfree : ¬ vns.Stays c v)
      (hshift : shift ∈ Set.Ico 1 vns.k)
      (htarget : shifted vns.k (c.assignment.community v) shift = .ok target)
      (hmoved : Moved vns c v target c') :
      Attempted vns c retries s (true, c') s'

/-- One more node is drawn first, which has to stay. -/
theorem Attempted.cons {s s₁ s₂ : Random.Stream} {v : Nat} {r : Bool × Candidate α}
    (hdraw : s.range 0 c.assignment.size = .ok (v, s₁)) (hv : v < c.assignment.size)
    (hstay : vns.Stays c v) (h : Attempted vns c retries s₁ r s₂) :
    Attempted vns c (retries + 1) s r s₂ := by
  cases h with
  | refused nodes hdraws hothers =>
      exact .refused (v :: nodes)
        (by rw [List.replicate_succ]; exact Random.Stream.ranges_cons_eq_ok hdraw hdraws)
        (List.forall_mem_cons.2 ⟨⟨hv, hstay⟩, hothers⟩)
  | moved nodes hdraws hfewer hothers hfree hshift htarget hmoved =>
      exact .moved (v :: nodes)
        (by rw [List.replicate_succ]; exact Random.Stream.ranges_cons_eq_ok hdraw hdraws)
        (Nat.succ_lt_succ hfewer) (List.forall_mem_cons.2 ⟨⟨hv, hstay⟩, hothers⟩) hfree hshift
        htarget hmoved

/-- If all nodes have to stay, nothing moves. -/
theorem Attempted.eq_of_stays {s s' : Random.Stream} {r : Bool × Candidate α}
    (h : Attempted vns c retries s r s') (hall : ∀ v < c.assignment.size, vns.Stays c v) :
    r = (false, c) := by
  cases h with
  | refused => rfl
  | moved _ _ _ _ hfree _ _ hmoved => exact absurd (hall _ hmoved.node_lt) hfree

/-- The fault of a sum of two community ids that is no word. It takes a node that may move and
more than `2 ^ 31` communities. -/
def Overflows (vns : NeighborhoodSearch) (c : Candidate α) (fault : Fault) : Prop :=
  2 ^ 31 < vns.k ∧ (∃ v < c.assignment.size, ¬ vns.Stays c v) ∧ ∃ sum, fault = .overflow sum

/-- A node that may move does. -/
theorem moved_of_not_stays (hc : c.Sound n vns.k) (hn : n < Tally.modulus) {v target : Nat}
    (hv : v < c.assignment.size) (hfree : ¬ vns.Stays c v) (htarget : target < vns.k)
    (hne : target ≠ c.assignment.community v) :
    ∃ t, c.tally.move (c.assignment.community v) target = .ok t ∧
      Moved vns c v target
        { c with assignment := c.assignment.setIfInBounds v target, tally := t } := by
  have hsize := hc.legal.size_eq
  have hcurrent := hc.legal.community_lt (hsize ▸ hv)
  have hpos := Tally.count_community_pos hv
  obtain ⟨t, hmove, hagrees⟩ := hc.agrees.move hv hcurrent htarget (hsize ▸ hn)
  have hcount := Tally.count_setIfInBounds hv target
  refine ⟨t, hmove, hv, Nat.lt_of_not_le (not_or.1 hfree).1, htarget, hne, rfl, ?_, ?_, ?_, ?_, rfl,
    ?_⟩
  · rw [hagrees.size_eq, hc.agrees.size_eq]
  · rw [hc.agrees.getD_eq hcurrent, hagrees.getD_eq hcurrent, hcount, if_pos rfl, if_neg hne]
    omega
  · rw [hc.agrees.getD_eq htarget, hagrees.getD_eq htarget, hcount, if_pos rfl, if_neg hne.symm]
    omega
  · intro d hleft hentered
    rcases Nat.lt_or_ge d vns.k with hd | hd
    · rw [hc.agrees.getElem?_eq hd, hagrees.getElem?_eq hd, hcount, if_neg hleft.symm,
        if_neg hentered.symm]
      rfl
    · rw [Array.getElem?_eq_none (hagrees.size_eq ▸ hd),
        Array.getElem?_eq_none (hc.agrees.size_eq ▸ hd)]
  · rw [hsize]
    exact ⟨hc.legal.setIfInBounds (hsize ▸ hv) htarget, hagrees⟩

/-- **An attempt moves one node or nothing**, unless two community ids overflow. -/
theorem attempt_gives (hc : c.Sound n vns.k) (hmin : vns.k ≤ vns.minSizes.size)
    (hn : n < Tally.modulus) (hk : vns.k ≤ 2 ^ 64) (hpos : 0 < retries → 0 < n)
    (scope : Scope α) :
    (vns.attempt retries c).GivesOr (vns.Overflows c) scope fun r scope' => ∃ stream,
      scope' = { scope with stream } ∧ Attempted vns c retries scope.stream r stream := by
  induction retries generalizing scope with
  | zero =>
      rw [attempt]
      exact Or.inl (Run.gives_pure.2 ⟨scope.stream, rfl, .refused [] rfl
        fun _ hv => absurd hv List.not_mem_nil⟩)
  | succ retries ih =>
      have hsize := hc.legal.size_eq
      obtain ⟨v, stream, hdraw, -, hv⟩ := scope.stream.range_eq_ok
        (hsize.symm ▸ hpos retries.succ_pos) (hsize.symm ▸ Nat.le_of_lt hn)
      have hcurrent := hc.legal.community_lt (hsize ▸ hv)
      have hread := Buffer.read_eq_getD (hcurrent.trans_le hmin) 0
      rw [attempt]
      refine Run.Gives.bindOr ((Run.gives_draw hdraw).2 ?_)
      refine Run.Gives.bindOr ((Run.gives_check (Assignment.get_eq hv)).2 ?_)
      refine Run.Gives.bindOr ((Run.gives_check (hc.agrees.get_eq hcurrent)).2 ?_)
      refine Run.Gives.bindOr ((Run.gives_check hread).2 ?_)
      by_cases hstay : vns.Stays c v
      -- A node that has to stay costs one draw.
      · rw [if_pos (by exact hstay)]
        refine (ih (fun _ => hpos retries.succ_pos) _).mono ?_
        intro r scope' hrest
        obtain ⟨stream', hscope, hattempted⟩ := hrest
        exact ⟨stream', hscope, .cons hdraw hv hstay hattempted⟩
      · have htwo : 1 < vns.k := by
          have hother := (not_or.1 hstay).2
          omega
        obtain ⟨shift, stream', hdraw', hlow, hshift⟩ :=
          Scope.stream { scope with stream } |>.range_eq_ok htwo hk
        rw [if_neg (by exact hstay)]
        refine Run.Gives.bindOr ((Run.gives_draw hdraw').2 ?_)
        refine Run.GivesOr.check ?_
        rcases shifted_cases hcurrent hshift with htarget | ⟨hlarge, sum, hoverflow⟩
        · left
          obtain ⟨hlt, hne⟩ := (bijOn_shift hcurrent).mapsTo ⟨hlow, hshift⟩
          obtain ⟨t, hmove, hmoved⟩ := moved_of_not_stays hc hn hv hstay hlt hne
          refine ⟨_, htarget, Or.inl ?_⟩
          simp only [Run.gives_bind, Run.gives_check (Assignment.set_eq hv _),
            Run.gives_check hmove, Run.gives_pure]
          exact ⟨stream', rfl, .moved []
            (Random.Stream.ranges_cons_eq_ok hdraw (Random.Stream.ranges_cons_eq_ok hdraw' rfl))
            retries.succ_pos (fun _ hu => absurd hu List.not_mem_nil) hstay ⟨hlow, hshift⟩
            htarget hmoved⟩
        · exact Or.inr ⟨_, hoverflow, hlarge, ⟨v, hv, hstay⟩, sum, rfl⟩

/-- The number of nodes that a perturbation may draw; without nodes there is nothing to draw. -/
def retriesFor (vns : NeighborhoodSearch) (c : Candidate α) : Nat :=
  if c.assignment.size = 0 then 0 else vns.maxRetries

theorem perturb_eq_attempt (vns : NeighborhoodSearch) (c : Candidate α) :
    vns.perturb c = vns.attempt (vns.retriesFor c) c := by
  rw [perturb, retriesFor, Array.isEmpty]
  by_cases hempty : c.assignment.size = 0
  · rw [if_pos hempty, if_pos (by simpa using hempty)]
    rfl
  · rw [if_neg hempty, if_neg (by simpa using hempty)]

/-- **So does a perturbation.** -/
theorem perturb_gives (hc : c.Sound n vns.k) (hmin : vns.k ≤ vns.minSizes.size)
    (hn : n < Tally.modulus) (hk : vns.k ≤ 2 ^ 64) (scope : Scope α) :
    (vns.perturb c).GivesOr (vns.Overflows c) scope fun r scope' => ∃ stream,
      scope' = { scope with stream } ∧
        Attempted vns c (vns.retriesFor c) scope.stream r stream := by
  rw [perturb_eq_attempt]
  refine attempt_gives hc hmin hn hk (fun hretries => ?_) scope
  refine Nat.pos_of_ne_zero fun hzero => ?_
  rw [retriesFor, if_pos (hc.legal.size_eq.trans hzero)] at hretries
  exact absurd hretries (Nat.not_lt_zero _)

/-! ### Several perturbations -/

/-- From `c` to `c'` at most `count` nodes have moved, and no community has been drained below its
minimum. -/
structure Displaced (vns : NeighborhoodSearch) (n count : Nat) (c c' : Candidate α) : Prop where
  sound : c'.Sound n vns.k
  spares : Assignment.Spares vns.minSizes vns.k c.assignment c'.assignment
  distance_le : Assignment.distance n c.assignment c'.assignment ≤ count
  cost_eq : c'.cost = c.cost

namespace Displaced

variable {count more : Nat}

theorem refl (hc : c.Sound n vns.k) (count : Nat) : Displaced vns n count c c where
  sound := hc
  spares := .refl _
  distance_le := (hammingDist_self _).trans_le (Nat.zero_le _)
  cost_eq := rfl

theorem trans (h : Displaced vns n count c c') (h' : Displaced vns n more c' c'') :
    Displaced vns n (count + more) c c'' where
  sound := h'.sound
  spares := h.spares.trans h'.spares
  distance_le := (hammingDist_triangle _ _ _).trans (Nat.add_le_add h.distance_le h'.distance_le)
  cost_eq := h'.cost_eq.trans h.cost_eq

end Displaced

/-- What an attempt comes to is at most one move away. -/
theorem Attempted.displaced {s s' : Random.Stream} {r : Bool × Candidate α}
    (h : Attempted vns c retries s r s') (hc : c.Sound n vns.k) : Displaced vns n 1 c r.2 := by
  cases h with
  | refused => exact .refl hc 1
  | moved _ _ _ _ _ _ _ hmoved =>
      refine ⟨hc.legal.size_eq ▸ hmoved.sound, ?_, ?_, hmoved.cost_eq⟩
      · rw [hmoved.assignment_eq]
        exact .move hmoved.node_lt hmoved.surplus
      · rw [hmoved.assignment_eq]
        exact Assignment.distance_setIfInBounds_le n hmoved.node_lt _

/-- **Perturbations move at most as many nodes as there are of them.** -/
theorem perturbMany_displaces (hc : c.Sound n vns.k) (hmin : vns.k ≤ vns.minSizes.size)
    (hn : n < Tally.modulus) (hk : vns.k ≤ 2 ^ 64) (count : Nat) (scope : Scope α) :
    (vns.perturbMany count c).GivesOr
      (fun fault => 0 < count ∧ 2 ^ 31 < vns.k ∧ ∃ sum, fault = .overflow sum) scope
      fun r scope' => (∃ stream, scope' = { scope with stream }) ∧ Displaced vns n count c r.2 ∧
        (count = 0 → r = (true, c)) := by
  induction count generalizing c scope with
  | zero =>
      rw [perturbMany]
      exact Or.inl (Run.gives_pure.2 ⟨⟨scope.stream, rfl⟩, .refl hc 0, fun _ => rfl⟩)
  | succ count ih =>
      rw [perturbMany]
      refine ((perturb_gives hc hmin hn hk scope).allow
        fun _ hfault => ⟨count.succ_pos, hfault.1, hfault.2.2⟩).bind ?_
      intro result scope' hpost
      obtain ⟨moved, c'⟩ := result
      obtain ⟨stream, rfl, hattempted⟩ := hpost
      have hfirst := hattempted.displaced hc
      dsimp only at hfirst ⊢
      split
      · refine ((ih hfirst.sound _).allow fun _ hfault => ⟨count.succ_pos, hfault.2⟩).mono ?_
        intro r scope'' hpost
        obtain ⟨⟨stream', rfl⟩, hrest, -⟩ := hpost
        exact ⟨⟨stream', rfl⟩, Nat.add_comm 1 count ▸ hfirst.trans hrest, nofun⟩
      · have hnone := hfirst.trans (.refl hfirst.sound count)
        exact Or.inl (Run.gives_pure.2 ⟨⟨stream, rfl⟩, Nat.add_comm 1 count ▸ hnone, nofun⟩)

/-! ### Rounds -/

theorem copyBest_eq_ok {p : Progress α} {k : Nat} (hbest : p.best.Sound n k)
    (hassignment : p.neighbor.assignment.size = n) (htally : p.neighbor.tally.size = k) :
    copyBest p = .ok { p.best with cost := p.neighbor.cost } := by
  rw [copyBest, Assignment.copyFrom_of_size_eq, ok_bind, Tally.copyFrom_of_size_eq, ok_bind]
  · rfl
  · rw [htally, hbest.agrees.size_eq]
  · rw [hassignment, hbest.legal.size_eq]

/-- The first half of a round: the neighbor from which its local search starts. -/
def disturb (vns : NeighborhoodSearch) (p : Progress α) : Run α (Bool × Candidate α) := do
  Run.begin (.vnsRound p.order)
  vns.perturbMany p.order (← Run.check (copyBest p))

/-- The second half: the neighbor is searched and compared with the best candidate. -/
def searchFrom [Weight α] (vns : NeighborhoodSearch) (ls : LocalSearch α) (p : Progress α)
    (perturbed : Bool) (start : Candidate α) : Run α (Bool × Progress α) := do
  let (_, workspace, neighbor) ← ls.compute p.workspace start
  let (improved, next) := vns.settle { p with workspace, neighbor }
  Run.count (·.recordVnsRound improved)
  Run.note (.vnsRound p.order neighbor.cost improved)
  Run.finish (.vnsRound p.order)
  return (perturbed, next)

theorem round_eq_bind [Weight α] (vns : NeighborhoodSearch) (ls : LocalSearch α)
    (p : Progress α) :
    vns.round ls p = vns.disturb p >>= fun r => vns.searchFrom ls p r.1 r.2 := by
  simp only [round, disturb, searchFrom, bind_assoc]

/-- **A round searches a neighbor that its order allows.** -/
theorem disturb_gives {p : Progress α} (hbest : p.best.Sound n vns.k)
    (hassignment : p.neighbor.assignment.size = n) (htally : p.neighbor.tally.size = vns.k)
    (hmin : vns.k ≤ vns.minSizes.size) (hn : n < Tally.modulus) (hid : vns.k ≤ 2 ^ 31)
    (scope : Scope α) :
    (vns.disturb p).Gives scope fun r scope' => ∃ stream,
      scope' = { scope with
        stream
        journal := scope.journal.push (.task (.began (.vnsRound p.order))) } ∧
      Displaced vns n p.order { p.best with cost := p.neighbor.cost } r.2 := by
  have hcopy : Candidate.Sound { p.best with cost := p.neighbor.cost } n vns.k :=
    ⟨hbest.legal, hbest.agrees⟩
  rw [disturb, Run.gives_bind, Run.gives_begin, Run.gives_bind,
    Run.gives_check (copyBest_eq_ok hbest hassignment htally)]
  rcases perturbMany_displaces hcopy hmin hn (hid.trans (by decide)) p.order
      { scope with journal := scope.journal.push (.task (.began (.vnsRound p.order))) } with
    hgives | ⟨_, -, -, hlarge, -⟩
  · refine hgives.mono fun r scope' hpost => ?_
    obtain ⟨⟨stream, hscope⟩, hdisplaced, -⟩ := hpost
    exact ⟨stream, hscope, hdisplaced⟩
  · omega

/-- **A perturbation is one legal move or nothing**, and after either it is known what has been
drawn. Whatever community a node is in, the shifts correspond one to one to the other ones. So a
round searches a neighbor that differs from the best candidate in no more nodes than its order,
with the sizes of its communities counted and none of them below its minimum, unless it was
before; then it has lost nothing. -/
theorem perturbations_are_legal_moves (vns : NeighborhoodSearch) (hid : vns.k ≤ 2 ^ 31)
    (hmin : vns.k ≤ vns.minSizes.size) {n : Nat} (hn : n < Tally.modulus) :
    (∀ {α : Type} {c : Candidate α}, c.Sound n vns.k → ∀ scope : Scope α, ∃ r stream,
      vns.perturb c scope = .ok (r, { scope with stream }) ∧
        Attempted vns c (if n = 0 then 0 else vns.maxRetries) scope.stream r stream) ∧
    (∀ current < vns.k,
      (∀ shift ∈ Set.Ico 1 vns.k,
        shifted vns.k current shift = .ok ((current + shift) % vns.k)) ∧
      Set.BijOn (fun shift => (current + shift) % vns.k) (Set.Ico 1 vns.k)
        {d | d < vns.k ∧ d ≠ current}) ∧
    ∀ {α : Type} [Weight α] (ls : LocalSearch α) {p : Progress α}, p.best.Sound n vns.k →
      p.neighbor.assignment.size = n → p.neighbor.tally.size = vns.k →
      vns.round ls p = (vns.disturb p >>= fun r => vns.searchFrom ls p r.1 r.2) ∧
      ∀ scope : Scope α, ∃ perturbed start stream,
        vns.disturb p scope = .ok ((perturbed, start), { scope with
          stream
          journal := scope.journal.push (.task (.began (.vnsRound p.order))) }) ∧
        start.Sound n vns.k ∧
        Assignment.distance n p.best.assignment start.assignment ≤ p.order ∧
        ∀ d < vns.k, min (p.best.assignment.count d) (vns.minSizes.getD d 0) ≤
          start.assignment.count d := by
  refine ⟨fun hc scope => ?_, fun current hcurrent => ⟨fun shift hshift => ?_, ?_⟩,
    fun ls p hbest hassignment htally => ⟨vns.round_eq_bind ls p, fun scope => ?_⟩⟩
  · rcases perturb_gives hc hmin hn (hid.trans (by decide)) scope with
      ⟨r, _, hrun, stream, rfl, hattempted⟩ | ⟨_, -, hlarge, -⟩
    · rw [retriesFor, hc.legal.size_eq] at hattempted
      exact ⟨r, stream, hrun, hattempted⟩
    · omega
  · exact shifted_eq_ok hid hcurrent hshift.2
  · exact bijOn_shift hcurrent
  · obtain ⟨⟨perturbed, start⟩, _, hrun, stream, rfl, hdisplaced⟩ :=
      disturb_gives hbest hassignment htally hmin hn hid scope
    exact ⟨perturbed, start, stream, hrun, hdisplaced.sound, hdisplaced.distance_le,
      hdisplaced.spares⟩

/-- Three nodes in two of three communities. If all of them have to stay, four draws are refused.
If the first community may lose one node, two perturbations do not take the second one too. -/
theorem perturbations_of_three :
    let full : NeighborhoodSearch := ⟨.maximize, 3, 2, 4, #[2, 1, 0]⟩
    let loose : NeighborhoodSearch := ⟨.maximize, 3, 2, 4, #[1, 1, 0]⟩
    let ls : LocalSearch Rat := .new (EdgeList.toGraph ⟨3, true, []⟩) .maximize 3 #[1, 1, 0] 2 1
    let c : Candidate Rat := ⟨#[0, 0, 1], #[2, 1, 0], .worst⟩
    let p : Progress Rat := ⟨ls.workspace, c, .blank 3 3, 2, ⟨2, 1, false⟩⟩
    let scope : Scope Rat := .start 4 7 .never
    (∃ nodes stream, full.perturb c scope = .ok ((false, c), { scope with stream }) ∧
      scope.stream.ranges [(0, 3), (0, 3), (0, 3), (0, 3)] = .ok (nodes, stream)) ∧
    (∃ shift ∈ Set.Ico 1 3, shifted 3 1 shift = .ok 0) ∧
    ∃ perturbed start scope', loose.disturb p scope = .ok ((perturbed, start), scope') ∧
      loose.round ls p scope = loose.searchFrom ls p perturbed start scope' ∧
      Assignment.distance 3 #[0, 0, 1] start.assignment ≤ 2 ∧ 1 ≤ start.assignment.count 0 := by
  intro full loose ls c p scope
  have hc : c.Sound 3 3 := ⟨by decide, by decide⟩
  have hfull := perturbations_are_legal_moves full (by decide) (by decide) (n := 3) (by decide)
  obtain ⟨-, hshifts, hrounds⟩ :=
    perturbations_are_legal_moves loose (by decide) (by decide) (n := 3) (by decide)
  refine ⟨?_, ?_, ?_⟩
  · obtain ⟨r, stream, hrun, hattempted⟩ := hfull.1 hc scope
    cases hattempted with
    | refused nodes hdraws => exact ⟨nodes, stream, hrun, hdraws⟩
    | moved _ _ _ _ hfree _ _ hmoved =>
        have hstay : ∀ v < c.assignment.size, full.Stays c v := by decide
        exact absurd (hstay _ hmoved.node_lt) hfree
  · obtain ⟨heq, hbij⟩ := hshifts 1 (by decide)
    obtain ⟨shift, hshift, hzero⟩ := hbij.surjOn (show 0 ∈ {d | d < 3 ∧ d ≠ 1} by simp)
    exact ⟨shift, hshift, (heq shift hshift).trans (congrArg Except.ok hzero)⟩
  · obtain ⟨hround, hdisturb⟩ := hrounds ls (p := p) hc (Assignment.size_zero 3)
      (Tally.size_zero 3)
    obtain ⟨perturbed, start, stream, hrun, -, hdistance, hspares⟩ := hdisturb scope
    refine ⟨perturbed, start, _, hrun, ?_, hdistance, hspares 0 (by decide)⟩
    rw [hround, Run.bind_of_eq_ok hrun]

end NeighborhoodSearch

end KCut
