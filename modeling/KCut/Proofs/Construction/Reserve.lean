import Mathlib.Algebra.Order.BigOperators.Group.List
import Mathlib.Data.List.Nodup
import KCut.Construction
import KCut.Proofs.Candidate
import KCut.Proofs.Random
import KCut.Proofs.Run

/-!
# KCut.Proofs.Construction.Reserve

Reserving the minimum sizes of the communities.

The node list stays a permutation of the nodes, of which the front has been
taken. What counts of the taken nodes is the list of their communities
(`Reservation.colors`): taking one more node appends one community to it, so
after all minimums have been reserved it holds each community as often as its
minimum says, or as the free nodes reach (`granted`, `takeMinimums_gives`).

What the loop over the minimums draws is told apart from what it does with the draws
(`Serves`): the communities are served in a fixed order (`owners`), and a position is
drawn for each turn from the nodes that are free by then (`PicksFrom`).
-/

namespace KCut

namespace Reservation

def taken (r : Reservation) : List Nat :=
  r.nodes.toList.take r.reserved

def colors (r : Reservation) : List Nat :=
  r.taken.map r.assignment.community

/-- The invariant of a reservation among `n` nodes for `k` communities. -/
structure Sound (r : Reservation) (n k : Nat) : Prop where
  perm : r.nodes.toList.Perm (List.range n)
  reserved_le : r.reserved ≤ n
  size_eq : r.assignment.size = n
  colors_lt : ∀ c ∈ r.colors, c < k

variable {r : Reservation} {n k community pick : Nat}

/-- Before the first node is taken. -/
theorem sound_start {a : Assignment} (ha : a.size = n) : Sound ⟨Array.range n, 0, a⟩ n k :=
  ⟨by simp, Nat.zero_le _, ha, by simp [colors, taken]⟩

theorem holds_start {a : Assignment} {t : Tally} (ht : t.size = k) :
    t.reset.Holds (colors ⟨Array.range n, 0, a⟩) k := by
  have hzero := Tally.Holds.zero k
  rw [Tally.reset, ht]
  simpa [colors, taken] using hzero

theorem Sound.size_nodes (h : r.Sound n k) : r.nodes.size = n := by
  have hlength := h.perm.length_eq
  rwa [Array.length_toList, List.length_range] at hlength

theorem Sound.nodes_lt (h : r.Sound n k) {i : Nat} (hi : i < r.nodes.size) : r.nodes[i] < n :=
  List.mem_range.1 (h.perm.mem_iff.1 (Array.getElem_mem_toList hi))

theorem Sound.nodup (h : r.Sound n k) : r.nodes.toList.Nodup :=
  h.perm.nodup_iff.2 List.nodup_range

theorem Sound.length_colors (h : r.Sound n k) : r.colors.length = r.reserved := by
  rw [colors, List.length_map, taken, List.length_take, Array.length_toList, h.size_nodes]
  exact Nat.min_eq_left h.reserved_le

/-- A node that has not been taken is not among the taken ones. -/
theorem Sound.not_mem_taken (h : r.Sound n k) (hpick : r.reserved ≤ pick)
    (hlt : pick < r.nodes.size) : r.nodes[pick] ∉ r.taken := by
  intro hmem
  obtain ⟨i, hi, heq⟩ := List.getElem_of_mem hmem
  rw [taken, List.length_take] at hi
  simp only [taken, List.getElem_take, Array.getElem_toList] at heq
  have hsame : i = pick := by
    have hi' : i < r.nodes.toList.length := by omega
    have hlt' : pick < r.nodes.toList.length := by simpa using hlt
    have heq' : r.nodes.toList[i] = r.nodes.toList[pick] := by simpa using heq
    exact h.nodup.getElem_inj_iff.1 heq'
  omega

/-- A swap to the front only reorders the nodes. -/
theorem perm_swap {nodes : Array Nat} {i j : Nat} (hi : i ≤ j) (hj : j < nodes.size) :
    (nodes.swapIfInBounds i j).toList.Perm nodes.toList := by
  have hi' : i < nodes.size := Nat.lt_of_le_of_lt hi hj
  rw [Array.swapIfInBounds_def, dif_pos hi', dif_pos hj]
  exact (Array.swap_perm hi' hj).toList

/-- The taken nodes after one more swap to the front. -/
theorem take_swap {nodes : Array Nat} {i j : Nat} (hi : i ≤ j) (hj : j < nodes.size) :
    (nodes.swapIfInBounds i j).toList.take (i + 1) = nodes.toList.take i ++ [nodes[j]] := by
  have hi' : i < nodes.size := by omega
  rw [Array.swapIfInBounds_def, dif_pos hi', dif_pos hj]
  refine List.ext_getElem (by simp; omega) fun m hm hm' => ?_
  rw [List.getElem_take, Array.getElem_toList, Array.getElem_swap]
  by_cases hmi : m = i
  · subst hmi
    rw [if_pos rfl, List.getElem_append_right (by simp)]
    simp
  · have hlt : m < i := by
      rw [List.length_take] at hm
      omega
    rw [if_neg hmi, if_neg (by omega), List.getElem_append_left (by simp; omega)]
    simp

/-- **Taking a node** gives it its community and no other node another one. -/
theorem Sound.take (h : r.Sound n k) (hpick : r.reserved ≤ pick) (hlt : pick < n)
    (hc : community < k) :
    ∃ r', r.take community pick = .ok r' ∧ r'.Sound n k ∧ r'.reserved = r.reserved + 1 ∧
      r'.nodes = r.nodes.swapIfInBounds r.reserved pick ∧
      r'.colors = r.colors ++ [community] := by
  have hpick' : pick < r.nodes.size := h.size_nodes ▸ hlt
  have hfront : r.reserved < r.nodes.size := Nat.lt_of_le_of_lt hpick hpick'
  have hread : Buffer.read (r.nodes.swapIfInBounds r.reserved pick) r.reserved =
      .ok r.nodes[pick] := by
    rw [Buffer.read_eq_ok (by simpa using hfront), Array.getElem_swapIfInBounds_left hpick']
  have hnode : r.nodes[pick] < r.assignment.size := h.size_eq ▸ h.nodes_lt hpick'
  -- The picked node was free, so no taken node gets another community.
  have hcolors : (r.taken ++ [r.nodes[pick]]).map
      (Assignment.community (r.assignment.setIfInBounds r.nodes[pick] community)) =
      r.colors ++ [community] := by
    have hcommunity := Assignment.community_setIfInBounds hnode community
    rw [List.map_append, List.map_singleton, hcommunity, if_pos rfl, colors]
    congr 1
    refine List.map_congr_left fun u hu => ?_
    have hne : u ≠ r.nodes[pick] := fun heq => h.not_mem_taken hpick hpick' (heq ▸ hu)
    rw [hcommunity, if_neg hne]
  refine ⟨⟨r.nodes.swapIfInBounds r.reserved pick, r.reserved + 1,
    r.assignment.setIfInBounds r.nodes[pick] community⟩, ?_, ?_, rfl, rfl, ?_⟩
  · rw [Reservation.take, Buffer.swap_eq_ok hfront hpick', ok_bind, hread, ok_bind, Assignment.set_eq hnode, ok_bind]
    rfl
  · refine ⟨(perm_swap hpick hpick').trans h.perm, Nat.succ_le_of_lt (Nat.lt_of_le_of_lt hpick hlt),
      by rw [Array.size_setIfInBounds, h.size_eq], ?_⟩
    intro c hmem
    rw [colors, taken, take_swap hpick hpick', ← taken, hcolors, List.mem_append,
      List.mem_singleton] at hmem
    rcases hmem with hmem | rfl
    · exact h.colors_lt c hmem
    · exact hc
  · rw [colors, taken, take_swap hpick hpick', ← taken, hcolors]

/-! ### Turns -/

/-- Positions at which nodes may be picked in turn when `first` of `n` nodes have been taken: each
pick falls on a node that is free by then. -/
def PicksFrom (n first : Nat) (picks : List Nat) : Prop :=
  ∀ i (h : i < picks.length), first + i ≤ picks[i] ∧ picks[i] < n

instance (n first : Nat) (picks : List Nat) : Decidable (PicksFrom n first picks) :=
  inferInstanceAs
    (Decidable (∀ i, ∀ h : i < picks.length, first + i ≤ picks[i] ∧ picks[i] < n))

theorem picksFrom_nil (n first : Nat) : PicksFrom n first [] :=
  fun _ h => absurd h (Nat.not_lt_zero _)

theorem picksFrom_cons {first : Nat} {picks : List Nat} :
    PicksFrom n first (pick :: picks) ↔
      (first ≤ pick ∧ pick < n) ∧ PicksFrom n (first + 1) picks := by
  constructor
  · intro h
    refine ⟨h 0 (Nat.succ_pos _), fun i hi => ?_⟩
    have hnext := h (i + 1) (Nat.succ_lt_succ hi)
    rw [List.getElem_cons_succ] at hnext
    omega
  · intro h i hi
    cases i with
    | zero => exact h.1
    | succ i =>
        have hnext := h.2 i (Nat.lt_of_succ_lt_succ hi)
        rw [List.getElem_cons_succ]
        omega

theorem PicksFrom.append {first : Nat} {picks more : List Nat} (h : PicksFrom n first picks)
    (h' : PicksFrom n (first + picks.length) more) : PicksFrom n first (picks ++ more) := by
  induction picks generalizing first with
  | nil => exact h'
  | cons pick picks ih =>
      obtain ⟨hpick, hpicks⟩ := picksFrom_cons.1 h
      refine picksFrom_cons.2 ⟨hpick, ih hpicks ?_⟩
      rwa [List.length_cons, Nat.add_comm picks.length, ← Nat.add_assoc] at h'

/-- The nodes that are picked in turn when the first `first` of the nodes have been taken. -/
def picked (nodes : Array Nat) (first : Nat) : List Nat → List Nat
  | [] => []
  | pick :: rest =>
      nodes.getD pick 0 :: picked (nodes.swapIfInBounds first pick) (first + 1) rest

/-- Takes nodes in turn, each for the given community at the given position. -/
def serve (r : Reservation) (turns : List (Nat × Nat)) : Except Fault Reservation :=
  turns.foldlM (fun r (community, pick) => r.take community pick) r

theorem serve_cons_eq_ok {r₁ r₂ : Reservation} {turns : List (Nat × Nat)}
    (htake : r.take community pick = .ok r₁) (hrest : r₁.serve turns = .ok r₂) :
    r.serve ((community, pick) :: turns) = .ok r₂ := by
  rw [serve, List.foldlM_cons]
  dsimp only
  rw [htake, ok_bind]
  exact hrest

theorem serve_append_eq_ok {r₁ r₂ : Reservation} {turns more : List (Nat × Nat)}
    (hturns : r.serve turns = .ok r₁) (hmore : r₁.serve more = .ok r₂) :
    r.serve (turns ++ more) = .ok r₂ := by
  rw [serve] at hturns
  rw [serve, List.foldlM_append, hturns, ok_bind]
  exact hmore

/-- **All turns can be taken** if each of them picks a free node. -/
theorem Sound.serve (h : r.Sound n k) {turns : List (Nat × Nat)}
    (hpicks : PicksFrom n r.reserved (turns.map Prod.snd))
    (hcolors : ∀ turn ∈ turns, turn.1 < k) :
    ∃ r', r.serve turns = .ok r' ∧ r'.Sound n k ∧
      r'.reserved = r.reserved + turns.length ∧
      r'.taken = r.taken ++ picked r.nodes r.reserved (turns.map Prod.snd) ∧
      r'.colors = r.colors ++ turns.map Prod.fst := by
  induction turns generalizing r with
  | nil => exact ⟨r, rfl, h, rfl, (List.append_nil _).symm, (List.append_nil _).symm⟩
  | cons turn turns ih =>
      obtain ⟨community, pick⟩ := turn
      obtain ⟨⟨hpick, hlt⟩, hrest⟩ := picksFrom_cons.1 hpicks
      have hlt' : pick < r.nodes.size := h.size_nodes ▸ hlt
      obtain ⟨r₁, htake, h₁, hreserved, hnodes, hcolors₁⟩ :=
        h.take hpick hlt (hcolors _ List.mem_cons_self)
      obtain ⟨r₂, hserve, h₂, hreserved₂, htaken₂, hcolors₂⟩ :=
        ih h₁ (hreserved ▸ hrest) fun turn hturn => hcolors turn (List.mem_cons_of_mem _ hturn)
      have htaken₁ : r₁.taken = r.taken ++ [r.nodes.getD pick 0] := by
        rw [taken, hnodes, hreserved, take_swap hpick hlt', ← Array.getElem_eq_getD 0, taken]
      refine ⟨r₂, serve_cons_eq_ok htake hserve, h₂, ?_, ?_, ?_⟩
      · rw [hreserved₂, hreserved, List.length_cons]
        omega
      · rw [htaken₂, htaken₁, hnodes, hreserved, List.append_assoc]
        rfl
      · rw [hcolors₂, hcolors₁, List.append_assoc]
        rfl

variable {α : Type} {scope scope₁ scope₂ : Scope α}

/-- From `r` to `r'` the given communities were served in turn. The position for each turn was
drawn in the scope from the free nodes, and nothing else happened there. -/
def Serves (n : Nat) (scope : Scope α) (r : Reservation) (colors : List Nat)
    (r' : Reservation) (scope' : Scope α) : Prop :=
  ∃ picks stream,
    scope.stream.ranges ((List.range' r.reserved colors.length).map (·, n)) =
      .ok (picks, stream) ∧
    scope' = { scope with stream } ∧ picks.length = colors.length ∧
    PicksFrom n r.reserved picks ∧ r.serve (colors.zip picks) = .ok r'

namespace Serves

variable {r₁ r₂ : Reservation} {colors more : List Nat}

theorem nil (n : Nat) (scope : Scope α) (r : Reservation) : Serves n scope r [] r scope :=
  ⟨[], scope.stream, rfl, rfl, rfl, picksFrom_nil n _, rfl⟩

theorem cons {stream : Random.Stream}
    (hdraw : scope.stream.range r.reserved n = .ok (pick, stream)) (hpick : r.reserved ≤ pick)
    (hlt : pick < n) (htake : r.take community pick = .ok r₁)
    (hreserved : r₁.reserved = r.reserved + 1)
    (h : Serves n { scope with stream } r₁ colors r₂ scope₂) :
    Serves n scope r (community :: colors) r₂ scope₂ := by
  obtain ⟨picks, stream', hdraws, rfl, hlength, hpicks, hserve⟩ := h
  rw [hreserved] at hdraws hpicks
  exact ⟨pick :: picks, stream', Random.Stream.ranges_cons_eq_ok hdraw hdraws, rfl,
    congrArg Nat.succ hlength, picksFrom_cons.2 ⟨⟨hpick, hlt⟩, hpicks⟩,
    serve_cons_eq_ok htake hserve⟩

theorem append (h : Serves n scope r colors r₁ scope₁)
    (hreserved : r₁.reserved = r.reserved + colors.length)
    (h' : Serves n scope₁ r₁ more r₂ scope₂) : Serves n scope r (colors ++ more) r₂ scope₂ := by
  obtain ⟨picks, stream, hdraws, rfl, hlength, hpicks, hserve⟩ := h
  obtain ⟨picks', stream', hdraws', rfl, hlength', hpicks', hserve'⟩ := h'
  rw [hreserved] at hdraws' hpicks'
  refine ⟨picks ++ picks', stream', ?_, rfl, ?_, hpicks.append (hlength ▸ hpicks'), ?_⟩
  · rw [List.length_append, ← List.range'_append_1, List.map_append]
    exact Random.Stream.ranges_append_eq_ok hdraws hdraws'
  · rw [List.length_append, List.length_append, hlength, hlength']
  · rw [List.zip_append hlength.symm]
    exact serve_append_eq_ok hserve hserve'

/-- Nodes that were free have been taken, one for each turn. -/
theorem sound (hs : Serves n scope r colors r₁ scope₁) (h : r.Sound n k)
    (hcolors : ∀ c ∈ colors, c < k) :
    r₁.Sound n k ∧ r₁.reserved = r.reserved + colors.length ∧ r₁.colors = r.colors ++ colors := by
  obtain ⟨picks, stream, -, -, hlength, hpicks, hserve⟩ := hs
  have hfree : PicksFrom n r.reserved ((colors.zip picks).map Prod.snd) := by
    rwa [List.map_snd_zip hlength.le]
  obtain ⟨r', hserve', h', hreserved, -, hcolors'⟩ :=
    h.serve hfree fun turn hturn => hcolors _ (List.of_mem_zip hturn).1
  obtain rfl : r₁ = r' := Except.ok.inj (hserve.symm.trans hserve')
  rw [List.length_zip, hlength, Nat.min_self] at hreserved
  rw [List.map_fst_zip hlength.ge] at hcolors'
  exact ⟨h', hreserved, hcolors'⟩

theorem quiet (hs : Serves n scope r colors r₁ scope₁) : scope.Quiet [] scope₁ := by
  obtain ⟨-, stream, -, rfl, -⟩ := hs
  exact (Scope.Quiet.refl scope).drawn stream

end Serves

/-- Taking several nodes for one community. -/
theorem takeMany_gives {count : Nat} (h : r.Sound n k) (hn : n ≤ 2 ^ 64)
    (hcount : r.reserved + count ≤ n) (hc : community < k) (scope : Scope α) :
    (takeMany community count r).Gives scope
      (Serves n scope r (List.replicate count community)) := by
  induction count generalizing r scope with
  | zero =>
      rw [takeMany, Run.gives_pure]
      exact .nil n scope r
  | succ count ih =>
      have hfree : r.reserved < n := by omega
      obtain ⟨pick, stream, hdraw, hpick, hlt⟩ := scope.stream.range_eq_ok hfree hn
      obtain ⟨r₁, htake, h₁, hreserved, -, -⟩ := h.take hpick hlt hc
      rw [takeMany, h.size_nodes, Run.gives_bind, Run.gives_draw hdraw, Run.gives_bind,
        Run.gives_check htake]
      exact (ih h₁ (by omega) _).mono fun _ _ hrest =>
        .cons hdraw hpick hlt htake hreserved hrest

/-! ### Minimums -/

/-- The nodes reserved for a community by the minimums of the communities from
`first` on. -/
def reservedFor (first : Nat) (mins : List Nat) (c : Nat) : Nat :=
  if first ≤ c then mins.getD (c - first) 0 else 0

theorem reservedFor_cons (first m : Nat) (mins : List Nat) (c : Nat) :
    reservedFor first (m :: mins) c =
      (if first = c then m else 0) + reservedFor (first + 1) mins c := by
  unfold reservedFor
  rcases Nat.lt_trichotomy first c with hlt | rfl | hgt
  · have hshift : c - first = c - (first + 1) + 1 := by omega
    rw [if_pos hlt.le, if_neg hlt.ne, if_pos (show first + 1 ≤ c from hlt), hshift,
      List.getD_cons_succ, Nat.zero_add]
  · rw [if_pos le_rfl, if_pos rfl, if_neg (Nat.not_succ_le_self _), Nat.sub_self,
      List.getD_cons_zero, Nat.add_zero]
  · rw [if_neg (Nat.not_le.2 hgt), if_neg hgt.ne', if_neg (by omega)]

/-- What is reserved for minimums, one after another, while `free` nodes are left: each of them in
full, or all nodes that the ones before it have left over. -/
def granted (free : Nat) : List Nat → List Nat
  | [] => []
  | m :: rest => min m free :: granted (free - min m free) rest

/-- All nodes are reserved if the minimums reach for them. -/
theorem sum_granted (free : Nat) (mins : List Nat) : (granted free mins).sum = min mins.sum free := by
  induction mins generalizing free with
  | nil => rw [granted, List.sum_nil, Nat.zero_min]
  | cons m rest ih =>
      rw [granted, List.sum_cons, List.sum_cons, ih]
      omega

/-- Minimums that the nodes reach for are reserved in full. -/
theorem granted_eq_self {free : Nat} {mins : List Nat} (h : mins.sum ≤ free) :
    granted free mins = mins := by
  induction mins generalizing free with
  | nil => rfl
  | cons m rest ih =>
      rw [List.sum_cons] at h
      rw [granted, Nat.min_eq_left (by omega), ih (by omega)]

theorem length_granted (free : Nat) (mins : List Nat) :
    (granted free mins).length = mins.length := by
  induction mins generalizing free with
  | nil => rfl
  | cons m rest ih => rw [granted, List.length_cons, List.length_cons, ih]

/-- The communities from `first` on in the order in which they are served, each as often as nodes
are reserved for it. -/
def owners (first : Nat) : List Nat → List Nat
  | [] => []
  | count :: rest => List.replicate count first ++ owners (first + 1) rest

theorem length_owners (first : Nat) (counts : List Nat) :
    (owners first counts).length = counts.sum := by
  induction counts generalizing first with
  | nil => rfl
  | cons count rest ih =>
      rw [owners, List.length_append, List.length_replicate, ih, List.sum_cons]

theorem owners_lt {first : Nat} {counts : List Nat} :
    ∀ c ∈ owners first counts, c < first + counts.length := by
  induction counts generalizing first with
  | nil => exact fun _ hc => absurd hc List.not_mem_nil
  | cons count rest ih =>
      intro c hc
      rw [owners, List.mem_append] at hc
      rw [List.length_cons]
      rcases hc with hfirst | hlater
      · rw [List.eq_of_mem_replicate hfirst]
        omega
      · have hlt := ih c hlater
        omega

theorem count_owners (first : Nat) (counts : List Nat) (c : Nat) :
    (owners first counts).count c = reservedFor first counts c := by
  induction counts generalizing first with
  | nil => simp [owners, reservedFor]
  | cons count rest ih =>
      rw [owners, List.count_append, List.count_replicate, ih, reservedFor_cons]
      simp only [beq_iff_eq]

/-- **The loop over the minimums serves their communities**, as far as the nodes reach. -/
theorem takeMinimums_serves {mins : List Nat} {t : Tally} (h : r.Sound n k)
    (ht : t.Holds r.colors k) (hn : n < Tally.modulus) (hk : community + mins.length ≤ k)
    (scope : Scope α) :
    (takeMinimums community mins (r, t)).Gives scope fun p scope' =>
      Serves n scope r (owners community (granted (n - r.reserved) mins)) p.1 scope' ∧
        p.2.Holds p.1.colors k := by
  induction mins generalizing r t community scope with
  | nil =>
      rw [takeMinimums, Run.gives_pure]
      exact ⟨.nil n scope r, ht⟩
  | cons m rest ih =>
      rw [List.length_cons] at hk
      have hle := h.reserved_le
      have hc : community < k := by omega
      -- No more nodes are taken for this minimum than are free.
      have hroom : r.reserved + min m (n - r.reserved) ≤ n := by omega
      rw [takeMinimums, h.size_nodes, Run.gives_bind, Run.gives_check (Checked.sub_eq_ok hle),
        Run.gives_bind]
      refine (takeMany_gives h (Nat.le_of_lt hn) hroom hc scope).mono ?_
      intro r₁ scope₁ hserves
      obtain ⟨h₁, hreserved, hcolors⟩ := hserves.sound h fun c hmem => by
        rwa [List.eq_of_mem_replicate hmem]
      have hword : r.colors.length + min m (n - r.reserved) < Tally.modulus := by
        rw [h.length_colors]
        omega
      obtain ⟨t₁, hadd, ht₁⟩ := ht.add hc hword
      rw [Run.gives_bind, Run.gives_check hadd]
      refine (ih h₁ (hcolors ▸ ht₁) (by omega) scope₁).mono ?_
      intro p scope₂ hpost
      obtain ⟨hserves', ht₂⟩ := hpost
      rw [List.length_replicate] at hreserved
      refine ⟨?_, ht₂⟩
      rw [granted, owners, Nat.sub_sub, ← hreserved]
      exact hserves.append (by rw [List.length_replicate, hreserved]) hserves'

/-- **The minimums are reserved one after another**, as far as the nodes reach. -/
theorem takeMinimums_gives {mins : List Nat} {t : Tally} (h : r.Sound n k)
    (ht : t.Holds r.colors k) (hn : n < Tally.modulus) (hk : community + mins.length ≤ k)
    (scope : Scope α) :
    (takeMinimums community mins (r, t)).Gives scope fun p scope' =>
      p.1.Sound n k ∧ p.2.Holds p.1.colors k ∧
        (∀ c, p.1.colors.count c =
          r.colors.count c + reservedFor community (granted (n - r.reserved) mins) c) ∧
        scope.Quiet [] scope' := by
  refine (takeMinimums_serves h ht hn hk scope).mono ?_
  intro p scope' hpost
  obtain ⟨hserves, ht'⟩ := hpost
  obtain ⟨h', -, hcolors⟩ := hserves.sound h fun c hmem => by
    have hlt := owners_lt c hmem
    rw [length_granted] at hlt
    omega
  refine ⟨h', ht', fun c => ?_, hserves.quiet⟩
  rw [hcolors, List.count_append, count_owners]

end Reservation

end KCut
