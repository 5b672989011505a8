import KCut.Proofs.Construction.Reserve
import KCut.Proofs.Partition

/-!
# KCut.Proofs.Construction.Place

Random placement puts every node into a community and keeps all minimums.

The placed nodes grow block by block (`Placed`): first the reserved ones, then one
block of free nodes after another. A block counts for itself and its counts are
added to the tally at its end, so the tally agrees with the placed nodes between
two blocks. Since the blocks are a cover of the free nodes, in the end it agrees
with the whole assignment (`buildIn_gives`).

What a block writes is known before it is drawn: its nodes, each with the next draw
of its stream (`drawn`). So the placed nodes are listed together with their
communities, and the list says all about the candidate (`Placed.eq`), in whatever
order it has come about.
-/

namespace KCut.RandomPlacement

variable {n k : Nat} {a : Assignment} {t : Tally}

/-! ### The counts of a block -/

/-- A tally of `colors` to which the counts of a block have been added for the
communities in `done`. -/
structure Added (colors block : List Nat) (k : Nat) (done : List Nat) (t : Tally) : Prop where
  size_eq : t.size = k
  getElem?_eq : ∀ {c : Nat}, c < k →
    t[c]? = some (colors.count c + if c ∈ done then block.count c else 0)

/-- The count of one more community. -/
theorem Added.step {colors block done : List Nat} {c : Nat} (h : Added colors block k done t)
    (hword : colors.length + block.length < Tally.modulus) (hc : c < k) (hnew : c ∉ done) :
    ∃ t', (if 0 < block.count c then t.add c (block.count c) else .ok t) = .ok t' ∧
      Added colors block k (done ++ [c]) t' := by
  by_cases hpos : 0 < block.count c
  · rw [if_pos hpos]
    refine ⟨_, Buffer.update_eq_ok (h.size_eq ▸ hc) _, by rw [Array.size_modify, h.size_eq], ?_⟩
    intro d hd
    rw [Array.getElem?_modify, h.getElem?_eq hd]
    by_cases hcd : c = d
    · subst hcd
      have hle : colors.count c + block.count c ≤ colors.length + block.length :=
        Nat.add_le_add List.count_le_length List.count_le_length
      rw [if_pos rfl, Option.map_some, if_neg hnew, Nat.add_zero, Nat.mod_eq_of_lt (by omega)]
      simp
    · simp [hcd, Ne.symm hcd]
  · -- No node of the block is in this community.
    have hzero := Nat.eq_zero_of_not_pos hpos
    rw [if_neg hpos]
    refine ⟨t, rfl, h.size_eq, ?_⟩
    intro d hd
    rw [h.getElem?_eq hd]
    by_cases hcd : d = c
    · simp [hcd, hzero]
    · simp [hcd]

/-- Adding the counts of a block, community by community. -/
theorem addCounts_eq {colors block : List Nat} {counts : Array Nat} (ht : t.Holds colors k)
    (hcounts : Tally.Holds counts block k) (hword : colors.length + block.length < Tally.modulus) :
    ∃ t', addCounts t counts = .ok t' ∧ t'.Holds (colors ++ block) k := by
  have hstart : Added colors block k [] t := ⟨ht.size_eq, fun hc => by simp [ht.getElem?_eq hc]⟩
  obtain ⟨t', hfold, hadded⟩ :
      ∃ t', addCounts t counts = .ok t' ∧ Added colors block k (List.range k) t' := by
    rw [addCounts, hcounts.zipIdx_eq, List.foldlM_map]
    refine foldlM_yields_nodup _ List.nodup_range hstart ?_
    intro done c t' hmem hnew hadded
    exact hadded.step hword (List.mem_range.1 hmem) hnew
  refine ⟨t', hfold, hadded.size_eq, ?_⟩
  intro c hc
  rw [hadded.getElem?_eq hc, if_pos (List.mem_range.2 hc), List.count_append]

/-! ### Placements -/

/-- The nodes in `placements` have been placed in the communities beside them, and counted. -/
structure Placed (n k : Nat) (placements : List (Nat × Nat)) (a : Assignment) (t : Tally) :
    Prop where
  size_eq : a.size = n
  lt : ∀ x ∈ placements, x.2 < k
  community_eq : ∀ x ∈ placements, a.community x.1 = x.2
  holds : t.Holds (placements.map Prod.snd) k

namespace Placed

variable {placements more : List (Nat × Nat)}

/-- Nodes that have kept their communities. -/
theorem append (h : Placed n k placements a t) {a' : Assignment} {t' counts : Tally}
    (h' : Placed n k more a' counts)
    (hkept : ∀ x ∈ placements, a'.community x.1 = a.community x.1)
    (ht' : t'.Holds (placements.map Prod.snd ++ more.map Prod.snd) k) :
    Placed n k (placements ++ more) a' t' where
  size_eq := h'.size_eq
  lt x hx := (List.mem_append.1 hx).elim (h.lt x) (h'.lt x)
  community_eq x hx := by
    rcases List.mem_append.1 hx with hx | hx
    · rw [hkept x hx, h.community_eq x hx]
    · exact h'.community_eq x hx
  holds := by rwa [List.map_append]

/-- The communities of the placed nodes. -/
theorem map_snd (h : Placed n k placements a t) :
    placements.map Prod.snd = (placements.map Prod.fst).map a.community := by
  rw [List.map_map]
  exact List.map_congr_left fun x hx => (h.community_eq x hx).symm

/-- If all nodes are placed, each of them once, their communities are the assignment. -/
theorem perm_toList (h : Placed n k placements a t)
    (hall : (placements.map Prod.fst).Perm (List.range n)) :
    (placements.map Prod.snd).Perm a.toList := by
  rw [h.map_snd, ← Assignment.map_community_range h.size_eq]
  exact hall.map _

theorem legal (h : Placed n k placements a t)
    (hall : (placements.map Prod.fst).Perm (List.range n)) : a.Legal n k := by
  refine ⟨h.size_eq, fun {v} hv => ?_⟩
  obtain ⟨x, hx, rfl⟩ := List.mem_map.1 (hall.mem_iff.2 (List.mem_range.2 hv))
  rw [h.community_eq x hx]
  exact h.lt x hx

theorem agrees (h : Placed n k placements a t)
    (hall : (placements.map Prod.fst).Perm (List.range n)) : t.Agrees a k :=
  (h.holds.of_perm (h.perm_toList hall)).agrees

/-- **The placements determine the candidate**, whatever their order. -/
theorem eq (h : Placed n k placements a t)
    (hall : (placements.map Prod.fst).Perm (List.range n)) {a' : Assignment} {t' : Tally}
    {placements' : List (Nat × Nat)} (h' : Placed n k placements' a' t')
    (hperm : placements'.Perm placements) : a' = a ∧ t' = t := by
  have hsame : a' = a := by
    refine Assignment.ext_community (h'.size_eq.trans h.size_eq.symm) fun v hv => ?_
    have hmem := hall.mem_iff.2 (List.mem_range.2 (h'.size_eq ▸ hv))
    obtain ⟨x, hx, rfl⟩ := List.mem_map.1 hmem
    rw [h.community_eq x hx, h'.community_eq x (hperm.mem_iff.2 hx)]
  have hall' : (placements'.map Prod.fst).Perm (List.range n) := (hperm.map _).trans hall
  refine ⟨hsame, (h'.agrees hall').unique ?_⟩
  rw [hsame]
  exact h.agrees hall

/-- Drawing the community of one more node. -/
theorem place {b : Block} (h : Placed n k placements b.assignment b.counts) {v c : Nat}
    {stream : Random.Stream} (hdraw : b.stream.range 0 k = .ok (c, stream)) (hc : c < k)
    (hv : v < n) (hnew : v ∉ placements.map Prod.fst) :
    ∃ b', b.place k v = .ok b' ∧ b'.stream = stream ∧
      Placed n k (placements ++ [(v, c)]) b'.assignment b'.counts ∧
      ∀ u ≠ v, b'.assignment.community u = b.assignment.community u := by
  have hv' : v < b.assignment.size := h.size_eq.symm ▸ hv
  have hcommunity := Assignment.community_setIfInBounds hv' c
  refine ⟨⟨stream, b.assignment.setIfInBounds v c, b.counts.modify c (· + 1)⟩, ?_, rfl, ?_,
    fun u hu => by rw [hcommunity, if_neg hu]⟩
  · rw [Block.place, hdraw, ok_bind]
    dsimp only
    rw [Assignment.set_eq hv', ok_bind, Buffer.update_eq_ok (h.holds.size_eq ▸ hc), ok_bind]
    rfl
  · refine ⟨by rw [Array.size_setIfInBounds, h.size_eq], fun x hx => ?_, fun x hx => ?_, ?_⟩
    · rcases List.mem_append.1 hx with hx | hx
      · exact h.lt x hx
      · rw [List.mem_singleton.1 hx]
        exact hc
    · rcases List.mem_append.1 hx with hx | hx
      · have hne : x.1 ≠ v := fun heq => hnew (heq ▸ List.mem_map_of_mem hx)
        rw [hcommunity, if_neg hne, h.community_eq x hx]
      · rw [List.mem_singleton.1 hx, hcommunity, if_pos rfl]
    · rw [List.map_append]
      exact h.holds.modify

end Placed

/-! ### One block -/

/-- The nodes of a block with the communities that its stream gives them. -/
def drawn (k : Nat) : List Nat → Random.Stream → List (Nat × Nat)
  | [], _ => []
  | v :: rest, stream =>
      match stream.range 0 k with
      | .ok (c, stream) => (v, c) :: drawn k rest stream
      | .error _ => []

theorem drawn_cons {v c : Nat} {rest : List Nat} {stream stream' : Random.Stream}
    (h : stream.range 0 k = .ok (c, stream')) :
    drawn k (v :: rest) stream = (v, c) :: drawn k rest stream' := by
  rw [drawn, h]

theorem map_fst_drawn (hk : 0 < k) (hkword : k ≤ 2 ^ 64) (nodes : List Nat)
    (stream : Random.Stream) : (drawn k nodes stream).map Prod.fst = nodes := by
  induction nodes generalizing stream with
  | nil => rfl
  | cons v rest ih =>
      obtain ⟨c, stream', hdraw, -, -⟩ := stream.range_eq_ok hk hkword
      rw [drawn_cons hdraw, List.map_cons, ih]

/-- Drawing nodes after others places each of them where the stream says and leaves all others
where they are. -/
theorem Placed.draw_nodes {placements : List (Nat × Nat)} {b : Block}
    (h : Placed n k placements b.assignment b.counts) (hk : 0 < k) (hkword : k ≤ 2 ^ 64)
    {nodes : List Nat} (hnodup : (placements.map Prod.fst ++ nodes).Nodup)
    (hlt : ∀ v ∈ nodes, v < n) :
    ∃ b', nodes.foldlM (Block.place k) b = .ok b' ∧
      Placed n k (placements ++ drawn k nodes b.stream) b'.assignment b'.counts ∧
      ∀ v ∉ nodes, b'.assignment.community v = b.assignment.community v := by
  induction nodes generalizing placements b with
  | nil => exact ⟨b, rfl, by rwa [drawn, List.append_nil], fun _ _ => rfl⟩
  | cons v rest ih =>
      obtain ⟨c, stream, hdraw, -, hc⟩ := b.stream.range_eq_ok hk hkword
      have hnew : v ∉ placements.map Prod.fst := fun hmem =>
        (List.nodup_append.1 hnodup).2.2 v hmem v List.mem_cons_self rfl
      obtain ⟨b₁, hplace, rfl, h₁, hothers₁⟩ := h.place hdraw hc (hlt v List.mem_cons_self) hnew
      obtain ⟨b₂, hrest, h₂, hothers₂⟩ := ih h₁ (by simpa using hnodup)
        fun u hu => hlt u (List.mem_cons_of_mem v hu)
      refine ⟨b₂, by rw [List.foldlM_cons, hplace, ok_bind, hrest], ?_, fun u hu => ?_⟩
      · rwa [drawn_cons hdraw, List.append_cons]
      · obtain ⟨huv, hurest⟩ := not_or.1 (List.mem_cons.not.1 hu)
        rw [hothers₂ u hurest, hothers₁ u huv]

/-- **Drawing the nodes of a block**, from counts at zero. -/
theorem foldlM_place (hk : 0 < k) (hkword : k ≤ 2 ^ 64) {nodes : List Nat} (hnodup : nodes.Nodup)
    (hlt : ∀ v ∈ nodes, v < n) (ha : a.size = n) (stream : Random.Stream) :
    ∃ b, nodes.foldlM (Block.place k) ⟨stream, a, Array.replicate k 0⟩ = .ok b ∧
      Placed n k (drawn k nodes stream) b.assignment b.counts ∧
      ∀ v ∉ nodes, b.assignment.community v = a.community v := by
  have hstart : Placed n k [] a (Tally.zero k) :=
    ⟨ha, fun _ hx => absurd hx List.not_mem_nil, fun _ hx => absurd hx List.not_mem_nil,
      Tally.Holds.zero k⟩
  exact Placed.draw_nodes (b := ⟨stream, a, Tally.zero k⟩) hstart hk hkword hnodup hlt

/-- The nodes of a block of free nodes. -/
def blockNodes (free : Array Nat) (p : Partition) : List Nat :=
  (free.extract p.start p.stop).toList

/-- The placements of a block of free nodes. -/
def blockPlacements (k : Nat) (free : Array Nat) (task : Partition × Random.Stream) :
    List (Nat × Nat) :=
  drawn k (blockNodes free task.1) task.2

/-- **Placing one more block.** -/
theorem Placed.block {before : List (Nat × Nat)} (h : Placed n k before a t) (hk : 0 < k)
    (hkword : k ≤ 2 ^ 64) (hn : n < Tally.modulus) {free : Array Nat}
    {task : Partition × Random.Stream} (hinside : task.1.stop ≤ free.size)
    (hnodup : (before.map Prod.fst ++ blockNodes free task.1).Nodup)
    (hlt : ∀ v ∈ before.map Prod.fst ++ blockNodes free task.1, v < n) :
    ∃ a' t', placeBlock k free (a, t) task = .ok (a', t') ∧
      Placed n k (before ++ blockPlacements k free task) a' t' := by
  obtain ⟨p, stream⟩ := task
  dsimp only at hinside hnodup hlt
  obtain ⟨hbefore, hblock, hdisjoint⟩ := List.nodup_append.1 hnodup
  obtain ⟨b, hfold, placed, hothers⟩ := foldlM_place hk hkword hblock
    (fun v hv => hlt v (List.mem_append_right _ hv)) h.size_eq stream
  have hkept : ∀ x ∈ before, b.assignment.community x.1 = a.community x.1 := fun x hx =>
    hothers x.1 fun hmem => hdisjoint x.1 (List.mem_map_of_mem hx) x.1 hmem rfl
  -- All placed nodes are different, so there are no more of them than a counter can count.
  have hlength : before.length + (blockNodes free p).length ≤ n := by
    have hsub := List.subperm_of_subset hnodup fun v hv => List.mem_range.2 (hlt v hv)
    simpa using hsub.length_le
  have hdrawn : (drawn k (blockNodes free p) stream).length = (blockNodes free p).length := by
    rw [← List.length_map Prod.fst, map_fst_drawn hk hkword]
  obtain ⟨t', hadd, ht'⟩ := addCounts_eq h.holds placed.holds
    (by rw [List.length_map, List.length_map, hdrawn]; omega)
  refine ⟨b.assignment, t', ?_, h.append placed hkept ht'⟩
  rw [placeBlock]
  dsimp only
  rw [Buffer.slice_eq_ok p.start_le_stop hinside, ok_bind, ← blockNodes, hfold, ok_bind,
    hadd, ok_bind]
  rfl

/-! ### All blocks -/

theorem filterMap_range' (xs : List Nat) (start size : Nat) :
    (List.range' start size).filterMap (xs[·]?) = (xs.drop start).take size := by
  induction size generalizing start with
  | zero => simp
  | succ size ih =>
      rw [List.range'_succ]
      rcases Nat.lt_or_ge start xs.length with hlt | hge
      · rw [List.filterMap_cons_some (List.getElem?_eq_getElem hlt), ih,
          List.drop_eq_getElem_cons hlt, List.take_succ_cons]
      · rw [List.filterMap_cons_none (List.getElem?_eq_none hge), ih,
          List.drop_eq_nil_of_le hge, List.drop_eq_nil_of_le (by omega), List.take_nil,
          List.take_nil]

theorem blockNodes_eq (free : Array Nat) (p : Partition) :
    blockNodes free p = p.nodes.filterMap (free.toList[·]?) := by
  rw [Partition.nodes, filterMap_range', blockNodes, Array.toList_extract,
    List.extract_eq_take_drop,
    Partition.stop, Nat.add_sub_cancel_left]

/-- The blocks are a cover of the free nodes. -/
theorem flatMap_blockNodes (free : Array Nat) (concurrency minBatch : Nat) :
    (Partition.byCount free.size concurrency minBatch).flatMap (blockNodes free) = free.toList := by
  have hblocks : blockNodes free = fun p => p.nodes.filterMap (free.toList[·]?) :=
    funext (blockNodes_eq free)
  rw [hblocks, ← List.filterMap_flatMap, Partition.nodes_byCount, List.range_eq_range',
    filterMap_range', List.drop_zero, ← Array.length_toList, List.take_length]

/-- **Drawing all blocks** places all free nodes. -/
theorem foldlM_placeBlock {before : List (Nat × Nat)} (h : Placed n k before a t) (hk : 0 < k)
    (hkword : k ≤ 2 ^ 64) (hn : n < Tally.modulus) {free : Array Nat}
    {tasks : List (Partition × Random.Stream)} (hinside : ∀ task ∈ tasks, task.1.stop ≤ free.size)
    (hnodup : (before.map Prod.fst ++ tasks.flatMap fun task => blockNodes free task.1).Nodup)
    (hlt : ∀ v ∈ before.map Prod.fst ++ tasks.flatMap fun task => blockNodes free task.1, v < n) :
    ∃ a' t', tasks.foldlM (placeBlock k free) (a, t) = .ok (a', t') ∧
      Placed n k (before ++ tasks.flatMap (blockPlacements k free)) a' t' := by
  induction tasks generalizing before a t with
  | nil => exact ⟨a, t, rfl, by simpa using h⟩
  | cons task rest ih =>
      rw [List.flatMap_cons, ← List.append_assoc] at hnodup hlt
      obtain ⟨hfirst, hrest⟩ := List.forall_mem_cons.1 hinside
      obtain ⟨a₁, t₁, hblock, h₁⟩ := h.block hk hkword hn hfirst (List.nodup_append.1 hnodup).1
        fun v hv => hlt v (List.mem_append_left _ hv)
      have hnodes : (before ++ blockPlacements k free task).map Prod.fst =
          before.map Prod.fst ++ blockNodes free task.1 := by
        rw [List.map_append, blockPlacements, map_fst_drawn hk hkword]
      obtain ⟨a₂, t₂, hfold, h₂⟩ := ih h₁ hrest (by rwa [hnodes]) (by rwa [hnodes])
      refine ⟨a₂, t₂, by rw [List.foldlM_cons, hblock, ok_bind, hfold], ?_⟩
      rwa [List.flatMap_cons, ← List.append_assoc]

theorem splitStreams_gives {α : Type} (partitions : List Partition) (scope : Scope α) :
    (splitStreams partitions).Gives scope fun tasks scope' =>
      tasks.map Prod.fst = partitions ∧ scope.Quiet [] scope' := by
  induction partitions generalizing scope with
  | nil =>
      rw [splitStreams, Run.gives_pure]
      exact ⟨rfl, .refl scope⟩
  | cons p rest ih =>
      rw [splitStreams, Run.gives_bind, Run.gives_split (Prod.mk.eta).symm, Run.gives_bind]
      refine (ih _).mono ?_
      intro tasks scope' hpost
      obtain ⟨htasks, hquiet⟩ := hpost
      rw [Run.gives_pure]
      exact ⟨by rw [List.map_cons, htasks], ((Scope.Quiet.refl scope).drawn _).trans hquiet⟩

/-! ### The placement -/

/-- **The minimum sizes are reserved first**, one after another. -/
theorem reserve_gives {α : Type} (minSizes : Array Nat) (hn : n < Tally.modulus)
    (ha : a.size = n) (ht : t.size = k) (scope : Scope α) :
    (Reservation.takeMinimums 0 (minSizes.toList.take k)
      (⟨Array.range n, 0, a⟩, t.reset)).Gives scope fun p scope' =>
        p.1.Sound n k ∧ p.2.Holds p.1.colors k ∧
          (∀ c, p.1.colors.count c =
            (Reservation.granted n (minSizes.toList.take k)).getD c 0) ∧
          scope.Quiet [] scope' := by
  have hlength : 0 + (minSizes.toList.take k).length ≤ k := by
    rw [Nat.zero_add, List.length_take]
    exact Nat.min_le_left _ _
  refine (Reservation.takeMinimums_gives (Reservation.sound_start ha) (Reservation.holds_start ht)
    hn hlength scope).mono ?_
  intro p scope' hpost
  obtain ⟨hsound, hholds, hcount, hquiet⟩ := hpost
  refine ⟨hsound, hholds, fun c => ?_, hquiet⟩
  rw [hcount c, Reservation.reservedFor, if_pos (Nat.zero_le c), Nat.sub_zero]
  simp [Reservation.colors, Reservation.taken]

/-- The nodes that have been reserved, with their communities. -/
def reservedPlacements (r : Reservation) : List (Nat × Nat) :=
  r.taken.map fun v => (v, r.assignment.community v)

theorem map_fst_reserved (r : Reservation) : (reservedPlacements r).map Prod.fst = r.taken := by
  rw [reservedPlacements, List.map_map]
  exact List.map_id _

theorem map_snd_reserved (r : Reservation) : (reservedPlacements r).map Prod.snd = r.colors := by
  rw [reservedPlacements, List.map_map]
  rfl

/-- The reserved nodes are placed and counted. -/
theorem placed_reserved {r : Reservation} (h : r.Sound n k) (ht : t.Holds r.colors k) :
    Placed n k (reservedPlacements r) r.assignment t where
  size_eq := h.size_eq
  lt x hx := h.colors_lt x.2 (map_snd_reserved r ▸ List.mem_map_of_mem hx)
  community_eq x hx := by
    obtain ⟨v, -, rfl⟩ := List.mem_map.1 hx
    rfl
  holds := by rwa [map_snd_reserved]

/-- The nodes that are left free by a reservation. -/
def freeNodes (r : Reservation) : Array Nat :=
  r.nodes.extract r.reserved r.nodes.size

theorem slice_eq_freeNodes {r : Reservation} (h : r.Sound n k) :
    Buffer.slice r.nodes r.reserved r.nodes.size = .ok (freeNodes r) :=
  Buffer.slice_eq_ok (h.size_nodes ▸ h.reserved_le) (Nat.le_refl _)

/-- The free nodes follow the taken ones, and together they are all nodes. -/
theorem taken_append_blocks (r : Reservation) {concurrency minBatch : Nat}
    {tasks : List (Partition × Random.Stream)}
    (htasks : tasks.map Prod.fst = Partition.byCount (freeNodes r).size concurrency minBatch) :
    (r.taken ++ tasks.flatMap fun task => blockNodes (freeNodes r) task.1) = r.nodes.toList := by
  have hfree : (freeNodes r).toList = r.nodes.toList.drop r.reserved := by
    rw [freeNodes, Array.toList_extract, List.extract_eq_take_drop,
      List.take_of_length_le (by simp)]
  rw [← List.flatMap_map, htasks, flatMap_blockNodes, Reservation.taken, hfree,
    List.take_append_drop]

/-- **Placing the free nodes** of a reservation, in any order of the blocks. -/
theorem place_free {r : Reservation} (h : r.Sound n k) (ht : t.Holds r.colors k) (hk : 0 < k)
    (hkword : k ≤ 2 ^ 64) (hn : n < Tally.modulus) {concurrency minBatch : Nat}
    {tasks tasks' : List (Partition × Random.Stream)}
    (htasks : tasks.map Prod.fst = Partition.byCount (freeNodes r).size concurrency minBatch)
    (hperm : tasks'.Perm tasks) :
    ∃ a' t', tasks'.foldlM (placeBlock k (freeNodes r)) (r.assignment, t) = .ok (a', t') ∧
      Placed n k (reservedPlacements r ++ tasks'.flatMap (blockPlacements k (freeNodes r))) a' t' ∧
      ((reservedPlacements r ++ tasks'.flatMap (blockPlacements k (freeNodes r))).map
        Prod.fst).Perm (List.range n) := by
  -- The blocks are the same in every order, so all nodes are among them and the taken ones.
  have hall : ((reservedPlacements r).map Prod.fst ++
      tasks'.flatMap fun task => blockNodes (freeNodes r) task.1).Perm (List.range n) := by
    rw [map_fst_reserved]
    refine ((hperm.flatMap_right _).append_left _).trans ?_
    rw [taken_append_blocks r htasks]
    exact h.perm
  have hnodes : (reservedPlacements r ++ tasks'.flatMap (blockPlacements k (freeNodes r))).map
      Prod.fst = (reservedPlacements r).map Prod.fst ++
        tasks'.flatMap fun task => blockNodes (freeNodes r) task.1 := by
    rw [List.map_append, List.map_flatMap]
    simp only [blockPlacements, map_fst_drawn hk hkword]
  have hinside : ∀ task ∈ tasks', task.1.stop ≤ (freeNodes r).size := by
    intro task htask
    have hmem : task.1 ∈ Partition.byCount (freeNodes r).size concurrency minBatch := by
      rw [← htasks]
      exact List.mem_map_of_mem (hperm.mem_iff.1 htask)
    exact Partition.stop_le_of_mem_byCount hmem
  obtain ⟨a', t', hfold, placed⟩ := foldlM_placeBlock (placed_reserved h ht) hk hkword hn hinside
    (hall.nodup_iff.2 List.nodup_range) fun v hv => List.mem_range.1 (hall.mem_iff.1 hv)
  exact ⟨a', t', hfold, placed, hnodes ▸ hall⟩

variable {order : List (Partition × Random.Stream) → List (Partition × Random.Stream)}

/-- **Random placement gives a candidate** that is legal and counted, whatever the order of the
blocks and the minimums. Each community has the nodes that could be reserved for it. The
placement neither polls nor scores a trial. -/
theorem buildIn_gives {α : Type} {g : Graph α} (hn : g.nodeCount < Tally.modulus) (hk : 0 < k)
    (hkword : k ≤ 2 ^ 64) (horder : ∀ tasks, (order tasks).Perm tasks) (minSizes : Array Nat)
    (ha : a.size = g.nodeCount) (ht : t.size = k) (minBatch : Nat) (scope : Scope α) :
    (buildIn order minBatch g minSizes a t).Gives scope fun r scope' =>
      r.1.Legal g.nodeCount k ∧ r.2.Agrees r.1 k ∧
        (∀ c, (Reservation.granted g.nodeCount (minSizes.toList.take k)).getD c 0 ≤
          r.1.count c) ∧
        scope.Quiet [] scope' := by
  rw [buildIn, ht]
  simp only [Run.gives_bind, Run.gives_begin]
  refine (reserve_gives minSizes hn ha ht _).mono ?_
  intro result scope₁ hpost
  obtain ⟨r, t₁⟩ := result
  obtain ⟨h₁, ht₁, hcount, hquiet₁⟩ := hpost
  dsimp only at h₁ ht₁ hcount ⊢
  rw [Run.gives_check (slice_eq_freeNodes h₁), Run.gives_concurrency]
  refine (splitStreams_gives _ scope₁).mono ?_
  intro tasks scope₂ hpost
  obtain ⟨htasks, hquiet₂⟩ := hpost
  obtain ⟨a₂, t₂, hfold, placed, hall⟩ := place_free h₁ ht₁ hk hkword hn htasks (horder tasks)
  rw [Run.gives_check hfold]
  simp only [Run.gives_note, Run.gives_finish, Run.gives_pure]
  refine ⟨placed.legal hall, placed.agrees hall, fun c => ?_, ?_⟩
  · -- The reserved nodes alone are as many.
    have hmore : r.colors.count c ≤ a₂.toList.count c := by
      rw [← (placed.perm_toList hall).count_eq, List.map_append, map_snd_reserved,
        List.count_append]
      exact Nat.le_add_right _ _
    have htoList : a₂.toList.count c = a₂.count c := Array.count_toList
    rwa [hcount c, htoList] at hmore
  · exact ((((Scope.Quiet.refl scope).task _).trans hquiet₁).trans hquiet₂).noted _ |>.task _

/-- **Minimums that fit are kept.** -/
theorem build_gives {α : Type} {g : Graph α} {minSizes : Array Nat}
    (hn : g.nodeCount < Tally.modulus)
    (hk : 0 < k) (hkword : k ≤ 2 ^ 64) (hmin : minSizes.size = k)
    (hsum : minSizes.toList.sum ≤ g.nodeCount) (ha : a.size = g.nodeCount) (ht : t.size = k)
    (minBatch : Nat) (scope : Scope α) :
    (build minBatch g minSizes a t).Gives scope fun r scope' =>
      r.1.Legal g.nodeCount k ∧ r.2.Agrees r.1 k ∧ r.1.Fills minSizes k ∧
        scope.Quiet [] scope' := by
  have htake : minSizes.toList.take k = minSizes.toList := by
    rw [← hmin, ← Array.length_toList, List.take_length]
  rw [build]
  refine (buildIn_gives hn hk hkword (fun tasks => .refl tasks) minSizes ha ht minBatch
    scope).mono ?_
  intro r scope' hpost
  obtain ⟨hlegal, hagrees, hgranted, hquiet⟩ := hpost
  refine ⟨hlegal, hagrees, fun c _ => ?_, hquiet⟩
  have hleast := hgranted c
  rw [htake, Reservation.granted_eq_self hsum] at hleast
  simpa using hleast

end KCut.RandomPlacement
