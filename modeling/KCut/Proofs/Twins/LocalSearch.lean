import KCut.Proofs.LocalSearch.Round
import KCut.Proofs.Twins.Simulation

/-!
# KCut.Proofs.Twins.LocalSearch

Local searches on twin problems.

Two problems are twins if one function `f` takes all costs of the one to those of
the other: the affinities of every node, the cost of every assignment, and the
comparisons of the objective. How the graphs are stored, and in which blocks, may
differ. A greedy pass then moves the same nodes to the same communities on both
sides (`greedyPass_eq`), since each of its decisions is a comparison of gains. So
two searches from the same assignment go through the same rounds, whatever their
workspaces held before (`compute_simulates`).
-/

namespace KCut

variable {α β : Type} [Weight α] [Weight β]

/-- The function `f` takes costs compared by `o` to costs that `o'` compares in the
same way, and keeps differences. -/
structure Objective.Carries (f : α → β) (o o' : Objective) : Prop where
  map_zero : f 0 = 0
  map_sub : ∀ x y, f (x - y) = f x - f y
  better_eq : ∀ x y, o'.better (f x) (f y) = o.better x y
  beatsWorst_eq : ∀ x, o'.beatsWorst (f x) = o.beatsWorst x

theorem Objective.Carries.id (o : Objective) : Carries (id : α → α) o o :=
  ⟨rfl, fun _ _ => rfl, fun _ _ => rfl, fun _ => rfl⟩

theorem Objective.Carries.prefers_eq {f : α → β} {o o' : Objective} (h : Carries f o o')
    (x y : Score α) : o'.prefers (x.map f) (y.map f) = o.prefers x y := by
  cases x with
  | worst => rfl
  | of x =>
      cases y with
      | worst => exact h.beatsWorst_eq x
      | of y => exact h.better_eq x y

namespace LocalSearch

/-- Two local searches on twin problems. -/
structure Twins (f : α → β) (ls : LocalSearch α) (ls' : LocalSearch β) : Prop where
  ready : ls.Ready
  ready' : ls'.Ready
  nodeCount_eq : ls'.graph.nodeCount = ls.graph.nodeCount
  k_eq : ls'.k = ls.k
  minSizes_eq : ls'.minSizes = ls.minSizes
  carries : Objective.Carries f ls.objective ls'.objective
  linked_iff : ∀ {u v : Nat}, u < ls.graph.nodeCount → v < ls.graph.nodeCount →
    (ls'.graph.Linked u v ↔ ls.graph.Linked u v)
  row_alike : ∀ {a : Assignment} {v : Nat}, a.Legal ls.graph.nodeCount ls.k →
    v < ls.graph.nodeCount →
    Alike (fun row row' => row' = row.map f) (ls.affinityRow a v) (ls'.affinityRow a v)
  cost_alike : ∀ {a : Assignment}, a.Legal ls.graph.nodeCount ls.k →
    Alike (fun cost cost' => cost' = f cost) (ls.costIn ls.partitions a)
      (ls'.costIn ls'.partitions a)

/-- A search is its own twin. -/
theorem Twins.refl {ls : LocalSearch α} (ready : ls.Ready) : Twins id ls ls where
  ready := ready
  ready' := ready
  nodeCount_eq := rfl
  k_eq := rfl
  minSizes_eq := rfl
  carries := .id ls.objective
  linked_iff _ _ := Iff.rfl
  row_alike _ _ := (Alike.refl _).mono fun row row' heq => by rw [Array.map_id, heq]
  cost_alike _ := (Alike.refl _).mono fun _ _ heq => heq.symm

namespace Twins

variable {f : α → β} {ls : LocalSearch α} {ls' : LocalSearch β} (h : ls.Twins f ls')

include h

/-! ### Tables -/

/-- **Twin tables**: the tables of a round hold the same affinities up to `f`,
whatever they held before. -/
theorem affinities_eq {a : Assignment} (ha : a.Legal ls.graph.nodeCount ls.k) {table : Array α}
    {table' : Array β} (htable : table.size = ls.graph.nodeCount * ls.k)
    (htable' : table'.size = ls'.graph.nodeCount * ls'.k) :
    ∃ t, ls.affinities a table = .ok t ∧ ls'.affinities a table' = .ok (t.map f) ∧
      t.size = ls.graph.nodeCount * ls.k := by
  have ha' : a.Legal ls'.graph.nodeCount ls'.k := by rwa [h.nodeCount_eq, h.k_eq]
  obtain ⟨t, hfill, hsize, hcells⟩ := affinities_rows h.ready ha htable
  obtain ⟨t', hfill', hsize', hcells'⟩ := affinities_rows h.ready' ha' htable'
  rw [h.nodeCount_eq, h.k_eq] at hsize'
  obtain rfl : t' = t.map f := by
    refine ext_rows hsize' (by rw [Array.size_map, hsize]) fun v hv c hc => ?_
    obtain ⟨row, hrow, -⟩ := affinityRow_gives h.ready ha hv
    obtain ⟨_, hrow', rfl⟩ := (hrow ▸ h.row_alike ha hv).exists_of_ok
    have hsame := hcells' (by rwa [h.nodeCount_eq]) (by rwa [h.k_eq]) hrow'
    rw [h.k_eq] at hsame
    rw [hsame, Array.getElem?_map, Array.getElem?_map, hcells hv hc hrow]
  exact ⟨t, hfill, hfill', hsize⟩

theorem entry_eq (table : Array α) (v c : Nat) :
    ls'.entry (table.map f) v c = f (ls.entry table v c) := by
  rw [entry, entry, h.k_eq, Array.getD_eq_getD_getElem?, Array.getElem?_map,
    Array.getD_eq_getD_getElem?, ← h.carries.map_zero, Option.getD_map]

theorem moveGain_eq (table : Array α) (v current c : Nat) :
    ls'.moveGain (table.map f) v current c = f (ls.moveGain table v current c) := by
  rw [moveGain, moveGain, h.entry_eq, h.entry_eq, h.carries.map_sub]

theorem better_moveGain (table : Array α) (v current c : Nat) :
    ls'.objective.better (ls'.moveGain (table.map f) v current c) 0 =
      ls.objective.better (ls.moveGain table v current c) 0 := by
  rw [h.moveGain_eq, ← h.carries.map_zero, h.carries.better_eq]

/-! ### Greedy passes -/

theorem isBestMove_iff (table : Array α) (v current c : Nat) :
    ls'.IsBestMove (table.map f) v current c ↔ ls.IsBestMove table v current c := by
  unfold IsBestMove
  rw [h.better_moveGain, h.k_eq]
  simp only [h.moveGain_eq, h.carries.better_eq]

theorem bestMove?_eq (table : Array α) (v current : Nat) :
    ls'.bestMove? (table.map f) v current = ls.bestMove? table v current := by
  rw [bestMove?, bestMove?, h.k_eq]
  congr 1
  funext c
  exact decide_eq_decide.2 (h.isBestMove_iff table v current c)

variable {table : Array α} {s : GreedyState} {v : Nat}

theorem mayMove_iff (hmoved : ∀ u ∈ s.moved, u < ls.graph.nodeCount)
    (hv : v < ls.graph.nodeCount) :
    ls'.MayMove (table.map f) s v ↔ ls.MayMove table s v := by
  unfold MayMove
  simp only [h.better_moveGain, h.k_eq, h.minSizes_eq]
  refine and_congr_right fun _ => and_congr_right fun _ => forall₂_congr fun u hu => ?_
  rw [h.linked_iff (hmoved u hu) hv]

/-- **A visit decides alike on both sides.** -/
theorem greedyVisit_eq (hmoved : ∀ u ∈ s.moved, u < ls.graph.nodeCount)
    (hv : v < ls.graph.nodeCount) :
    ls'.greedyVisit (table.map f) s v = ls.greedyVisit table s v := by
  rw [greedyVisit, greedyVisit, target, target, h.bestMove?_eq]
  exact if_congr (h.mayMove_iff hmoved hv) rfl rfl

/-- **Twin passes move the same nodes** to the same communities. -/
theorem greedyPass_eq [Weight.Ordered α] {a : Assignment} {t : Tally}
    (hsize : table.size = ls.graph.nodeCount * ls.k) (ha : a.Legal ls.graph.nodeCount ls.k)
    (ht : t.Agrees a ls.k) {nodes : List Nat} (hnodup : nodes.Nodup)
    (hlt : ∀ v ∈ nodes, v < ls.graph.nodeCount) :
    ls'.greedyPass (table.map f) nodes ⟨a, t, []⟩ = ls.greedyPass table nodes ⟨a, t, []⟩ := by
  -- The nodes that have moved are nodes of the graph, which is all that a visit needs.
  have hboth : (ls.greedyPass table nodes ⟨a, t, []⟩).Sound ls nodes ∧
      ls'.greedyPass (table.map f) nodes ⟨a, t, []⟩ = ls.greedyPass table nodes ⟨a, t, []⟩ :=
    greedyPass_keeps (I := fun done s => s.Sound ls done ∧
      ls'.greedyPass (table.map f) done ⟨a, t, []⟩ = s) ⟨.start ha ht, rfl⟩ (by
      intro done s v hv hnew hinv
      obtain ⟨sound, heq⟩ := hinv
      rw [greedyPass_concat, heq]
      exact ⟨sound.visit hv hnew hsize h.ready.nodeCount_lt,
        h.greedyVisit_eq (fun u hu => (sound.moved_done u hu).2) hv⟩) hnodup hlt
  exact hboth.2

end Twins

/-! ### Rounds -/

/-- Two searches between the same rounds, in workspaces of their own. -/
structure Progress.Image (ls : LocalSearch α) (ls' : LocalSearch β) (p : Progress α)
    (p' : Progress β) : Prop where
  sound : p.Sound ls
  fits : p'.workspace.Fits ls'
  assignment_eq : p'.assignment = p.assignment
  tally_eq : p'.tally = p.tally
  changed_eq : p'.changed = p.changed
  rounds_eq : p'.rounds = p.rounds
  swaps_eq : p'.swaps = p.swaps

namespace Twins

variable [Weight.Ordered α] [Weight.Ordered β] {f : α → β} {ls : LocalSearch α}
  {ls' : LocalSearch β} (h : ls.Twins f ls') {base : Base α} {base' : Base β}

include h

/-- **Twin rounds**: both make the same moves. -/
theorem round_simulates {p : Progress α} {p' : Progress β} (hp : p.Image ls ls' p') :
    Run.Simulates (Scope.Image f base base') (Progress.Image ls ls')
      (ls.round ls.partitions p) (ls'.round ls'.partitions p') := by
  have hlegal' : p.assignment.Legal ls'.graph.nodeCount ls'.k := by
    rw [h.nodeCount_eq, h.k_eq]
    exact hp.sound.legal
  have hagrees' : p.tally.Agrees p.assignment ls'.k := by
    rw [h.k_eq]
    exact hp.sound.agrees
  have hnodes : ls'.partitions.flatMap Partition.nodes = ls.partitions.flatMap Partition.nodes := by
    rw [h.ready.nodes_eq, h.ready'.nodes_eq, h.nodeCount_eq]
  have hnodup := h.ready.nodup_nodes (List.Perm.refl _)
  have hlt := h.ready.nodes_lt (List.Perm.refl _)
  obtain ⟨table, htable, htable', hsize⟩ := h.affinities_eq hp.sound.legal
    hp.sound.fits.size_affinities hp.fits.size_affinities
  have hsize' : (table.map f).size = ls'.graph.nodeCount * ls'.k := by
    rw [Array.size_map, hsize, h.nodeCount_eq, h.k_eq]
  obtain ⟨marks, hreset, hmarks, huntouched⟩ := resetMarks_eq h.ready hp.sound.fits.size_marks
  obtain ⟨marks', hreset', hmarks', huntouched'⟩ := resetMarks_eq h.ready' hp.fits.size_marks
  obtain ⟨s, hswap, hfollows⟩ := visits_refine h.ready hsize hp.sound.legal hp.sound.agrees
    hnodup hlt (.start hmarks huntouched)
  obtain ⟨s', hswap', hfollows'⟩ := visits_refine h.ready' hsize' hlegal' hagrees'
    (h.ready'.nodup_nodes (List.Perm.refl _)) (h.ready'.nodes_lt (List.Perm.refl _))
    (.start hmarks' huntouched')
  obtain ⟨sound, -⟩ := greedyPass_sound h.ready hsize hp.sound.legal hp.sound.agrees hnodup hlt
  -- Both second phases follow one greedy pass.
  rw [hnodes, h.greedyPass_eq hsize hp.sound.legal hp.sound.agrees hnodup hlt] at hfollows'
  rw [← swapIn_eq_foldlM] at hswap hswap'
  rw [round, round, hp.assignment_eq, hp.tally_eq]
  refine (Run.simulates_begin _).bind fun _ _ _ => ?_
  refine .check htable htable' ?_
  refine (Run.simulates_finish _).bind fun _ _ _ => ?_
  refine (Run.simulates_begin _).bind fun _ _ _ => ?_
  refine .check hreset hreset' (.check hswap hswap' ?_)
  refine (Run.simulates_finish _).bind fun _ _ _ => ?_
  have hmoved : s'.moved = s.moved := hfollows'.moved_eq.trans hfollows.moved_eq.symm
  rw [hp.rounds_eq, hmoved]
  refine (Run.simulates_note (.localSearchRound (p.rounds + 1) s.moved)).bind fun _ _ _ => ?_
  refine Run.simulates_pure ⟨⟨⟨hsize, hfollows.size_marks⟩, ?_, ?_⟩,
    ⟨hsize', hfollows'.size_marks⟩, ?_, ?_, ?_, rfl, congrArg (· + s.moved) hp.swaps_eq⟩
  · exact hfollows.assignment_eq ▸ sound.legal
  · rw [hfollows.tally_eq, hfollows.assignment_eq]
    exact sound.agrees
  · exact hfollows'.assignment_eq.trans hfollows.assignment_eq.symm
  · exact hfollows'.tally_eq.trans hfollows.tally_eq.symm
  · exact hfollows'.changed_eq.trans hfollows.changed_eq.symm

/-- **Twin rounds end alike**, since they change alike and hear the same answers. -/
theorem converge_simulates {bound : Nat} {p : Progress α} {p' : Progress β}
    (hp : p.Image ls ls' p') :
    Run.Simulates (Scope.Image f base base') (Progress.Image ls ls')
      (ls.converge ls.inOrder bound p) (ls'.converge ls'.inOrder bound p') := by
  induction bound generalizing p p' with
  | zero =>
      rw [converge, converge, hp.changed_eq]
      split
      · exact Run.simulates_check (.fault _)
      · exact Run.simulates_pure hp
  | succ bound ih =>
      rw [converge, converge, hp.changed_eq]
      split
      · refine Run.simulates_poll.bind_eq fun stop => ?_
        cases stop with
        | true => exact Run.simulates_pure hp
        | false => exact (h.round_simulates hp).bind fun _ _ hp' => ih hp'
      · exact Run.simulates_pure hp

omit [Weight.Ordered α] [Weight.Ordered β] in
/-- Twin costs. -/
theorem evaluate_simulates {a : Assignment} (ha : a.Legal ls.graph.nodeCount ls.k) :
    Run.Simulates (Scope.Image f base base') (fun cost cost' => cost' = cost.map f)
      (ls.evaluate a) (ls'.evaluate a) := by
  rw [evaluate, evaluate, evaluateIn, evaluateIn]
  refine (Run.simulates_begin _).bind fun _ _ _ => ?_
  refine (Run.simulates_check (h.cost_alike ha)).bind ?_
  rintro cost _ rfl
  refine (Run.simulates_finish _).bind fun _ _ _ => ?_
  exact Run.simulates_pure rfl

omit [Weight.Ordered α] [Weight.Ordered β] in
theorem roundBound_eq : ls'.roundBound = ls.roundBound := by
  rw [roundBound, roundBound, h.k_eq, h.nodeCount_eq]

end Twins

/-- The results of twin searches: the same outcome and, up to the change of the costs,
the same candidate. Nothing is said of what is left in the workspaces. -/
structure ResultImage (f : α → β) (ls : LocalSearch α) (ls' : LocalSearch β)
    (r : LocalSearchOutcome × Workspace α × Candidate α)
    (r' : LocalSearchOutcome × Workspace β × Candidate β) : Prop where
  outcome_eq : r'.1 = r.1
  fits : r.2.1.Fits ls
  fits' : r'.2.1.Fits ls'
  sound : r.2.2.Sound ls.graph.nodeCount ls.k
  candidate_eq : r'.2.2 = r.2.2.mapCost f

/-- **Twin searches** go through the same rounds. Neither what their workspaces hold
nor the cost cells of their candidates play a part in it. -/
theorem Twins.compute_simulates [Weight.Ordered α] [Weight.Ordered β] {f : α → β}
    {ls : LocalSearch α} {ls' : LocalSearch β} (h : ls.Twins f ls') {base : Base α}
    {base' : Base β} {w : Workspace α} {w' : Workspace β} (hw : w.Fits ls) (hw' : w'.Fits ls')
    {c : Candidate α} {c' : Candidate β} (hc : c.Sound ls.graph.nodeCount ls.k)
    (hsame : c.SamePlaces c') :
    Run.Simulates (Scope.Image f base base') (ResultImage f ls ls') (ls.compute w c)
      (ls'.compute w' c') := by
  have hstart : Progress.Image ls ls' ⟨w, c.assignment, c.tally, true, 0, 0⟩
      ⟨w', c'.assignment, c'.tally, true, 0, 0⟩ :=
    ⟨⟨hw, hc.legal, hc.agrees⟩, hw', hsame.assignment_eq, hsame.tally_eq, rfl, rfl, rfl⟩
  rw [compute, compute, computeOn, computeOn, h.roundBound_eq]
  refine (Run.simulates_begin _).bind fun _ _ _ => ?_
  refine (Run.simulates_begin _).bind fun _ _ _ => ?_
  refine (h.converge_simulates hstart).bind fun p p' hp => ?_
  refine (Run.simulates_finish _).bind fun _ _ _ => ?_
  rw [hp.assignment_eq, hp.tally_eq, hp.changed_eq, hp.rounds_eq, hp.swaps_eq]
  refine (h.evaluate_simulates hp.sound.legal).bind ?_
  rintro cost _ rfl
  refine (Run.simulates_finish _).bind fun _ _ _ => ?_
  refine (Run.simulates_count _).bind fun _ _ _ => ?_
  exact Run.simulates_pure
    ⟨rfl, hp.sound.fits, hp.fits, ⟨hp.sound.legal, hp.sound.agrees⟩, rfl⟩

end LocalSearch

end KCut
