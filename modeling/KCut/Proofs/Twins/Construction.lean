import KCut.Proofs.Construction.Place
import KCut.Proofs.Twins.Simulation

/-!
# KCut.Proofs.Twins.Construction

Random placement sees neither what its buffers held before nor the order of its blocks.

Two placements in buffers of the same size draw the same numbers and write the same
communities to the same nodes. While nodes are being reserved, the assignments agree
on the nodes that have been taken (`Assignment.SameOn`). Then both place the free nodes
in the communities that the streams of the blocks say. So in the end the two candidates
have the same placements, and these determine a candidate (`buildIn_simulates`).
-/

namespace KCut

/-- Two assignments of `n` nodes agree on some of them. -/
structure Assignment.SameOn (n : Nat) (nodes : List Nat) (a a' : Assignment) : Prop where
  size_eq : a.size = n
  size_eq' : a'.size = n
  community_eq : ∀ v ∈ nodes, a'.community v = a.community v

namespace Assignment.SameOn

variable {n : Nat} {nodes : List Nat} {a a' : Assignment}

theorem mono {fewer : List Nat} (h : a.SameOn n nodes a') (hsub : ∀ v ∈ fewer, v ∈ nodes) :
    a.SameOn n fewer a' :=
  ⟨h.size_eq, h.size_eq', fun v hv => h.community_eq v (hsub v hv)⟩

/-- They also agree on a node that is written on both sides. -/
theorem set (h : a.SameOn n nodes a') (v c : Nat) :
    Alike (Assignment.SameOn n (nodes ++ [v])) (a.set v c) (a'.set v c) := by
  rcases Nat.lt_or_ge v n with hv | hv
  · have ha : v < a.size := h.size_eq ▸ hv
    have ha' : v < a'.size := h.size_eq' ▸ hv
    rw [set_eq ha, set_eq ha']
    refine .ok ⟨by rw [Array.size_setIfInBounds, h.size_eq],
      by rw [Array.size_setIfInBounds, h.size_eq'], fun u hu => ?_⟩
    rw [community_setIfInBounds ha, community_setIfInBounds ha']
    by_cases huv : u = v
    · rw [if_pos huv, if_pos huv]
    · rw [if_neg huv, if_neg huv]
      refine h.community_eq u ((List.mem_append.1 hu).resolve_right fun hmem => ?_)
      exact huv (List.mem_singleton.1 hmem)
  · rw [Assignment.set, Assignment.set, Buffer.write, Buffer.write, h.size_eq, h.size_eq',
      if_neg (Nat.not_lt.2 hv), if_neg (Nat.not_lt.2 hv)]
    exact .fault _

end Assignment.SameOn

variable {α β : Type} {f : α → β} {base : Base α} {base' : Base β} {n k : Nat}

/-! ### Reserved nodes -/

namespace Reservation

/-- Two reservations that have taken the same nodes for the same communities. -/
structure Image (n : Nat) (r r' : Reservation) : Prop where
  nodes_eq : r'.nodes = r.nodes
  reserved_eq : r'.reserved = r.reserved
  same : r.assignment.SameOn n r.taken r'.assignment

/-- A swap with a node behind the taken ones does not touch these. -/
theorem take_swapIfInBounds {nodes : Array Nat} {i j : Nat} (hij : i ≤ j) :
    (nodes.swapIfInBounds i j).toList.take i = nodes.toList.take i := by
  by_cases hj : j < nodes.size
  · have htake := congrArg (List.take i) (take_swap hij hj)
    rwa [List.take_take, Nat.min_eq_left (Nat.le_succ i), List.take_left' ?_] at htake
    rw [List.length_take, Array.length_toList]
    omega
  · rw [Array.swapIfInBounds_def]
    split
    · rfl
    · rfl

/-- **Taking a node on both sides.** -/
theorem Image.take {r r' : Reservation} (h : Image n r r') {community pick : Nat}
    (hpick : r.reserved ≤ pick) :
    Alike (Image n) (r.take community pick) (r'.take community pick) := by
  rw [Reservation.take, Reservation.take, h.nodes_eq, h.reserved_eq]
  cases hswap : Buffer.swap r.nodes r.reserved pick with
  | error fault => exact .fault fault
  | ok nodes =>
  have hnodes : r.nodes.swapIfInBounds r.reserved pick = nodes :=
    (Buffer.eq_of_swap_eq_ok hswap).symm
  simp only [ok_bind]
  cases hread : Buffer.read nodes r.reserved with
  | error fault => exact .fault fault
  | ok node =>
      refine (h.same.set node community).bind fun a a' hsame => ?_
      refine .ok ⟨rfl, rfl, hsame.mono fun v hv => ?_⟩
      -- The taken nodes are those from before and the one at the front.
      have hfront : nodes[r.reserved]? = some node := by
        rw [Buffer.read] at hread
        cases hcell : nodes[r.reserved]? with
        | some x =>
            rw [hcell] at hread
            rw [Except.ok.inj hread]
        | none =>
            rw [hcell] at hread
            cases hread
      have htaken : taken ⟨nodes, r.reserved + 1, a⟩ = r.taken ++ [node] := by
        rw [taken, List.take_add_one, Array.getElem?_toList, hfront, ← hnodes,
          take_swapIfInBounds hpick]
        rfl
      exact htaken ▸ hv

theorem takeMany_simulates {community count : Nat} {r r' : Reservation} (h : Image n r r') :
    Run.Simulates (Scope.Image f base base') (Image n) (takeMany community count r)
      (takeMany community count r') := by
  induction count generalizing r r' with
  | zero =>
      rw [takeMany, takeMany]
      exact Run.simulates_pure h
  | succ count ih =>
      rw [takeMany, takeMany, h.nodes_eq, h.reserved_eq]
      refine (Run.simulates_draw _ _).bind ?_
      rintro pick _ ⟨hpick, rfl⟩
      exact (Run.simulates_check (h.take hpick)).bind fun _ _ h' => ih h'

theorem takeMinimums_simulates {mins : List Nat} {community : Nat} {r r' : Reservation}
    (h : Image n r r') (t : Tally) :
    Run.Simulates (Scope.Image f base base') (fun p p' => Image n p.1 p'.1 ∧ p'.2 = p.2)
      (takeMinimums community mins (r, t)) (takeMinimums community mins (r', t)) := by
  induction mins generalizing community r r' t with
  | nil =>
      rw [takeMinimums, takeMinimums]
      exact Run.simulates_pure ⟨h, rfl⟩
  | cons m rest ih =>
      rw [takeMinimums, takeMinimums, h.nodes_eq, h.reserved_eq]
      refine (Run.simulates_check (Alike.refl _)).bind_eq fun free => ?_
      refine (takeMany_simulates h).bind fun r₁ r₁' h₁ => ?_
      refine (Run.simulates_check (Alike.refl _)).bind_eq fun t₁ => ?_
      exact ih h₁ t₁

end Reservation

/-! ### The placement -/

namespace Reservation.Image

open RandomPlacement (freeNodes reservedPlacements)

variable {r r' : Reservation}

theorem freeNodes_eq (h : Image n r r') : freeNodes r' = freeNodes r := by
  rw [freeNodes, freeNodes, h.nodes_eq, h.reserved_eq]

theorem taken_eq (h : Image n r r') : r'.taken = r.taken := by
  rw [taken, taken, h.nodes_eq, h.reserved_eq]

theorem reservedPlacements_eq (h : Image n r r') :
    reservedPlacements r' = reservedPlacements r := by
  rw [reservedPlacements, reservedPlacements, h.taken_eq]
  exact List.map_congr_left fun v hv => congrArg (Prod.mk v) (h.same.community_eq v hv)

theorem colors_eq (h : Image n r r') : r'.colors = r.colors := by
  rw [← RandomPlacement.map_snd_reserved, h.reservedPlacements_eq,
    RandomPlacement.map_snd_reserved]

theorem sound (h : Image n r r') (hsound : r.Sound n k) : r'.Sound n k where
  perm := h.nodes_eq ▸ hsound.perm
  reserved_le := h.reserved_eq ▸ hsound.reserved_le
  size_eq := h.same.size_eq'
  colors_lt := h.colors_eq ▸ hsound.colors_lt

end Reservation.Image

namespace RandomPlacement

theorem splitStreams_simulates (partitions : List Partition) :
    Run.Simulates (Scope.Image f base base')
      (fun tasks tasks' => tasks.map Prod.fst = partitions ∧ tasks' = tasks)
      (splitStreams partitions) (splitStreams partitions) := by
  induction partitions with
  | nil =>
      rw [splitStreams, splitStreams]
      exact Run.simulates_pure ⟨rfl, rfl⟩
  | cons p rest ih =>
      rw [splitStreams, splitStreams]
      refine Run.simulates_split.bind_eq fun stream => ?_
      refine ih.bind ?_
      rintro tasks _ ⟨htasks, rfl⟩
      exact Run.simulates_pure ⟨by rw [List.map_cons, htasks], rfl⟩

/-- **Random placement overwrites its buffers**: with as many workers and in buffers of the
same sizes it gives the same candidate, whatever they held before and in whatever order the
blocks are drawn. The candidate is legal and counted. -/
theorem buildIn_simulates (hworkers : base'.workers = base.workers) {g : Graph α} {g' : Graph β}
    (hnodes : g'.nodeCount = g.nodeCount) (hn : g.nodeCount < Tally.modulus) (hk : 0 < k)
    (hkword : k ≤ 2 ^ 64)
    {order order' : List (Partition × Random.Stream) → List (Partition × Random.Stream)}
    (horder : ∀ tasks, (order tasks).Perm tasks) (horder' : ∀ tasks, (order' tasks).Perm tasks)
    (minSizes : Array Nat) {a a' : Assignment} (ha : a.size = g.nodeCount)
    (ha' : a'.size = g.nodeCount) {t t' : Tally} (ht : t.size = k) (ht' : t'.size = k)
    (minBatch : Nat) :
    Run.Simulates (Scope.Image f base base')
      (fun r r' => (r.1.Legal g.nodeCount k ∧ r.2.Agrees r.1 k) ∧ r' = r)
      (buildIn order minBatch g minSizes a t) (buildIn order' minBatch g' minSizes a' t') := by
  refine Run.Simulates.and_ensures ?_ fun s =>
    (buildIn_gives hn hk hkword horder minSizes ha ht minBatch s).ensures.mono
      fun _ _ h => ⟨h.1, h.2.1⟩
  have hstart : Reservation.Image g.nodeCount ⟨Array.range g.nodeCount, 0, a⟩
      ⟨Array.range g.nodeCount, 0, a'⟩ := ⟨rfl, rfl, ha, ha', fun v hv => nomatch hv⟩
  have hreset : t'.reset = t.reset := by rw [Tally.reset, Tally.reset, ht, ht']
  rw [buildIn, buildIn, hnodes, hreset, ht, ht']
  refine (Run.simulates_begin _).bind fun _ _ _ => ?_
  refine (Run.Simulates.and_ensures (Reservation.takeMinimums_simulates hstart t.reset) fun s =>
    (reserve_gives minSizes hn ha ht s).ensures.mono fun _ _ h => (⟨h.1, h.2.1⟩ : _ ∧ _)).bind ?_
  rintro ⟨r, _⟩ ⟨r', t₁⟩ ⟨⟨sound, holds⟩, himage, rfl⟩
  dsimp only at sound holds himage ⊢
  refine Run.Simulates.check (slice_eq_freeNodes sound)
    (slice_eq_freeNodes (himage.sound sound)) ?_
  rw [himage.freeNodes_eq, himage.reserved_eq]
  refine Run.simulates_concurrency.bind ?_
  rintro _ _ ⟨rfl, rfl⟩
  rw [hworkers]
  refine (splitStreams_simulates _).bind ?_
  rintro _ tasks ⟨htasks, rfl⟩
  -- Both sides place the same nodes in the same communities, block by block.
  obtain ⟨a₁, t₂, hfold, placed, hall⟩ :=
    place_free sound holds hk hkword hn htasks (horder tasks)
  obtain ⟨a₁', t₂', hfold', placed', -⟩ :=
    place_free (himage.sound sound) (himage.colors_eq ▸ holds) hk hkword hn
      (himage.freeNodes_eq ▸ htasks) (horder' tasks)
  rw [himage.freeNodes_eq] at hfold' placed'
  rw [himage.reservedPlacements_eq] at placed'
  refine Run.Simulates.check hfold hfold' ?_
  have hsame := ((horder' tasks).trans (horder tasks).symm).flatMap_right
    (blockPlacements k (freeNodes r))
  obtain ⟨rfl, rfl⟩ := placed.eq hall placed' (hsame.append_left _)
  refine (Run.simulates_note (.constructionEnd _ _ _)).bind fun _ _ _ => ?_
  refine (Run.simulates_finish _).bind fun _ _ _ => ?_
  exact Run.simulates_pure rfl

end RandomPlacement

end KCut
