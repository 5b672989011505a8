import KCut.Proofs.LocalSearch.Converge
import KCut.Proofs.Twins.Simulation

/-!
# KCut.Proofs.LocalSearch.OnePass

The blocks of a search change nothing but the order in which its cost is summed.

`computeOnce` is a search that has no blocks and keeps no buffers: each phase of a round
is one pass over the nodes, the table and the marks are new in every round. A search in
blocks goes through the same rounds (`round_simulates`), since its three phases come down
to such passes: its blocks of rows lie one behind the other in the table
(`affinities_eq_allAffinities`), resetting the marks block by block resets all of them
(`resetMarks_eq_replicate`), and the nodes of its blocks are the nodes of the graph, in
their order.
-/

namespace KCut.LocalSearch

variable {α : Type}

/-! ### A search without blocks -/

section

variable [Weight α]

/-- A search on a graph that has no blocks. -/
def unblocked (g : Graph α) (objective : Objective) (k : Nat) (minSizes : Array Nat) :
    LocalSearch α where
  graph := g
  objective := objective
  k := k
  minSizes := minSizes
  partitions := []
  incoming := if g.undirected then none else some g.incoming

/-- The rows of all nodes, one behind the other. -/
def allAffinities (ls : LocalSearch α) (a : Assignment) : Except Fault (Array α) :=
  (List.range ls.graph.nodeCount).foldlM
    (fun table v => do return table ++ (← ls.affinityRow a v)) #[]

/-- The weight of the cut, summed over all nodes. -/
def allCost (ls : LocalSearch α) (a : Assignment) : Except Fault α := do
  let sum ← (List.range ls.graph.nodeCount).foldlM (ls.addCut a) 0
  return if ls.graph.undirected then Weight.half sum else sum

/-- The state of a search between two rounds, apart from its buffers. -/
structure Walk where
  assignment : Assignment
  tally : Tally
  changed : Bool
  rounds : Nat
  swaps : Nat

/-- One round, with each phase in one pass over the nodes. -/
def roundOnce (ls : LocalSearch α) (w : Walk) : Run α Walk := do
  Run.begin .computeAffinities
  let table ← Run.check (ls.allAffinities w.assignment)
  Run.finish .computeAffinities
  Run.begin .swapForLocalImprovements
  let marks := Array.replicate ls.graph.nodeCount .untouched
  let s ← Run.check ((List.range ls.graph.nodeCount).foldlM (ls.visit table)
    ⟨w.assignment, w.tally, marks, false, 0⟩)
  Run.finish .swapForLocalImprovements
  Run.note (.localSearchRound (w.rounds + 1) s.moved)
  return ⟨s.assignment, s.tally, s.changed, w.rounds + 1, w.swaps + s.moved⟩

/-- Such rounds until one changes nothing or the run has to stop, at most `bound`. -/
def convergeOnce (ls : LocalSearch α) : (bound : Nat) → Walk → Run α Walk
  | 0, w => if w.changed then Run.check (.error .boundExceeded) else return w
  | bound + 1, w => do
      if w.changed then
        if ← Run.poll then return w
        convergeOnce ls bound (← ls.roundOnce w)
      else return w

/-- Improves a candidate and scores it, without blocks. -/
def computeOnce (ls : LocalSearch α) (c : Candidate α) :
    Run α (LocalSearchOutcome × Candidate α) := do
  Run.begin .localSearch
  Run.begin .convergenceLoop
  let w ← ls.convergeOnce ls.roundBound ⟨c.assignment, c.tally, true, 0, 0⟩
  Run.finish .convergenceLoop
  Run.begin .computeCost
  let cost ← Run.check (ls.allCost w.assignment)
  Run.finish .computeCost
  Run.finish .localSearch
  Run.count (·.recordLocalSearch w.rounds w.swaps)
  return (⟨w.rounds, w.swaps, !w.changed⟩, ⟨w.assignment, w.tally, .of cost⟩)

/-! What a search without blocks does does not depend on blocks. -/

section

variable (g : Graph α) (objective : Objective) (k : Nat) (minSizes : Array Nat)
  (concurrency minBatch : Nat)

theorem roundOnce_new : (new g objective k minSizes concurrency minBatch).roundOnce =
    (unblocked g objective k minSizes).roundOnce := rfl

theorem convergeOnce_new (bound : Nat) (w : Walk) :
    (new g objective k minSizes concurrency minBatch).convergeOnce bound w =
      (unblocked g objective k minSizes).convergeOnce bound w := by
  induction bound generalizing w with
  | zero => rw [convergeOnce, convergeOnce]
  | succ bound ih => simp only [convergeOnce, roundOnce_new, ih]

theorem computeOnce_new (c : Candidate α) :
    (new g objective k minSizes concurrency minBatch).computeOnce c =
      (unblocked g objective k minSizes).computeOnce c := by
  have hbound : (new g objective k minSizes concurrency minBatch).roundBound =
      (unblocked g objective k minSizes).roundBound := rfl
  have hcost : (new g objective k minSizes concurrency minBatch).allCost =
      (unblocked g objective k minSizes).allCost := rfl
  rw [computeOnce, computeOnce, hbound, hcost]
  simp only [convergeOnce_new]

end

end

/-! ### The phases of a round -/

section

variable [Weight α] {ls : LocalSearch α} {a : Assignment}

/-- The first `m` rows, one behind the other. -/
theorem foldlM_append_rows (ready : ls.Ready) (ha : a.Legal ls.graph.nodeCount ls.k) {m : Nat}
    (hm : m ≤ ls.graph.nodeCount) :
    ∃ table, (List.range m).foldlM
        (fun table v => do return table ++ (← ls.affinityRow a v)) #[] = .ok table ∧
      table.size = m * ls.k ∧
      ∀ {v c : Nat} {row : Array α}, v < m → c < ls.k → ls.affinityRow a v = .ok row →
        table[v * ls.k + c]? = row[c]? := by
  induction m with
  | zero => exact ⟨#[], rfl, by simp, fun hv => absurd hv (Nat.not_lt_zero _)⟩
  | succ m ih =>
      obtain ⟨table, hfold, hsize, hcells⟩ := ih (by omega)
      obtain ⟨row, hrow, hrowsize⟩ := affinityRow_gives (v := m) ready ha (by omega)
      refine ⟨table ++ row, ?_, ?_, ?_⟩
      · rw [List.range_succ, List.foldlM_append, hfold, ok_bind, List.foldlM_cons, hrow]
        rfl
      · rw [Array.size_append, hsize, hrowsize, Nat.succ_mul]
      · intro v c row' hv hc hrow'
        rcases Nat.lt_or_eq_of_le (Nat.le_of_lt_succ hv) with hlt | rfl
        · have hfits := row_fits ls hlt
          rw [Nat.succ_mul] at hfits
          rw [Array.getElem?_append_left (by omega), hcells hlt hc hrow']
        · obtain rfl : row = row' := Except.ok.inj (hrow.symm.trans hrow')
          rw [Array.getElem?_append_right (by omega), hsize, Nat.add_sub_cancel_left]

/-- **The blocks of rows make up the whole table**, whatever it held before. -/
theorem affinities_eq_allAffinities (ready : ls.Ready) (ha : a.Legal ls.graph.nodeCount ls.k)
    {table : Array α} (htable : table.size = ls.graph.nodeCount * ls.k) :
    ls.affinities a table = ls.allAffinities a := by
  obtain ⟨filled, hfill, hsize, hcells⟩ := affinities_rows ready ha htable
  obtain ⟨rows, hrows, hsize', hcells'⟩ := foldlM_append_rows ready ha (Nat.le_refl _)
  rw [hfill, allAffinities, hrows]
  refine congrArg Except.ok (ext_rows hsize hsize' fun v hv c hc => ?_)
  obtain ⟨row, hrow, -⟩ := affinityRow_gives ready ha hv
  rw [hcells hv hc hrow, hcells' hv hc hrow]

/-- **All marks are reset**, whatever they were. -/
theorem resetMarks_eq_replicate (ready : ls.Ready) {marks : Array Mark}
    (hmarks : marks.size = ls.graph.nodeCount) :
    ls.resetMarks marks = .ok (Array.replicate ls.graph.nodeCount .untouched) := by
  obtain ⟨marks', hreset, hsize, huntouched⟩ := resetMarks_eq ready hmarks
  rw [hreset]
  refine congrArg Except.ok (Array.ext_getElem? fun u => ?_)
  rw [Array.getElem?_replicate]
  split
  · next hu => exact huntouched hu
  · next hu => exact Array.getElem?_eq_none (by omega)

/-- **The blocks list the nodes in their order.** -/
theorem swapIn_eq_visits (ready : ls.Ready) (table : Array α) (s : SwapState) :
    ls.swapIn table ls.partitions s =
      (List.range ls.graph.nodeCount).foldlM (ls.visit table) s := by
  rw [swapIn_eq_foldlM, ready.nodes_eq]

end

/-! ### Searches with and without blocks -/

namespace Walk

/-- The state of a search in blocks, without its buffers. -/
def of (p : Progress α) : Walk :=
  ⟨p.assignment, p.tally, p.changed, p.rounds, p.swaps⟩

/-- A search without blocks has come as far as one in blocks. -/
def Tracks (ls : LocalSearch α) (p : Progress α) (w : Walk) : Prop :=
  p.Sound ls ∧ of p = w

end Walk

section

variable [Weight α] [Weight.Ordered α] {ls : LocalSearch α}

/-- **A round in blocks is a round in one pass.** -/
theorem round_simulates (ready : ls.Ready) {p : Progress α} (hp : p.Sound ls) :
    Run.Simulates Eq (Walk.Tracks ls) (ls.round ls.partitions p) (ls.roundOnce (.of p)) := by
  have hsound : ∀ s, (ls.round ls.partitions p).Ensures s fun p' _ => p'.Sound ls :=
    fun s => ((round_sweeps ready (.refl _) hp s).mono fun _ _ h => h.1.sound ready).ensures
  refine Run.Simulates.and_ensures (R := fun p w => Walk.of p = w) ?_ hsound
  rw [round, roundOnce]
  refine (Run.simulates_self _).bind_eq fun _ => ?_
  rw [affinities_eq_allAffinities ready hp.legal hp.fits.size_affinities]
  refine (Run.simulates_self _).bind_eq fun table => ?_
  refine (Run.simulates_self _).bind_eq fun _ => ?_
  refine (Run.simulates_self _).bind_eq fun _ => ?_
  rw [resetMarks_eq_replicate ready hp.fits.size_marks, Run.check_ok_bind]
  dsimp only
  rw [swapIn_eq_visits ready]
  refine (Run.simulates_self _).bind_eq fun s => ?_
  refine (Run.simulates_self _).bind_eq fun _ => ?_
  refine (Run.simulates_self _).bind_eq fun _ => ?_
  exact Run.simulates_pure rfl

theorem converge_simulates (ready : ls.Ready) {bound : Nat} {p : Progress α} (hp : p.Sound ls) :
    Run.Simulates Eq (Walk.Tracks ls) (ls.converge ls.inOrder bound p)
      (ls.convergeOnce bound (.of p)) := by
  induction bound generalizing p with
  | zero =>
      rw [converge, convergeOnce]
      show Run.Simulates _ _ (if p.changed then _ else _) (if p.changed then _ else _)
      split
      · exact Run.simulates_check (.fault _)
      · exact Run.simulates_pure ⟨hp, rfl⟩
  | succ bound ih =>
      rw [converge, convergeOnce]
      show Run.Simulates _ _ (if p.changed then _ else _) (if p.changed then _ else _)
      split
      · refine (Run.simulates_self _).bind_eq fun stop => ?_
        cases stop with
        | true => exact Run.simulates_pure ⟨hp, rfl⟩
        | false =>
            refine (round_simulates ready hp).bind fun p' w hp' => ?_
            obtain ⟨hsound, rfl⟩ := hp'
            exact ih hsound
      · exact Run.simulates_pure ⟨hp, rfl⟩

omit [Weight.Ordered α] in
/-- Summed over all nodes, every assignment of them has a cost as well. -/
theorem allCost_total (wf : ls.graph.WellFormed) {a : Assignment}
    (ha : a.size = ls.graph.nodeCount) : ∃ cost, ls.allCost a = .ok cost := by
  obtain ⟨sum, hsum⟩ := foldlM_total (f := ls.addCut a) (l := List.range ls.graph.nodeCount)
    (fun sum v hv => addCut_total wf ha (List.mem_range.1 hv) sum) 0
  rw [allCost, hsum]
  exact ⟨_, rfl⟩

/-- The results of a search in blocks and of one without: the same outcome and the same
places of all nodes, scored by a sum over the blocks and by one over the nodes. -/
structure OnceImage (ls : LocalSearch α) (r : LocalSearchOutcome × Workspace α × Candidate α)
    (r' : LocalSearchOutcome × Candidate α) : Prop where
  outcome_eq : r'.1 = r.1
  assignment_eq : r'.2.assignment = r.2.2.assignment
  tally_eq : r'.2.tally = r.2.2.tally
  size_eq : r.2.2.assignment.size = ls.graph.nodeCount
  cost_eq : ∃ cost, ls.costIn ls.partitions r.2.2.assignment = .ok cost ∧ r.2.2.cost = .of cost
  cost_eq' : ∃ cost, ls.allCost r.2.2.assignment = .ok cost ∧ r'.2.cost = .of cost

/-- **A search in blocks goes through the rounds of a search without.** -/
theorem compute_simulates (ready : ls.Ready) {w : Workspace α} (hw : w.Fits ls)
    {c : Candidate α} (hc : c.Sound ls.graph.nodeCount ls.k) :
    Run.Simulates Eq (OnceImage ls) (ls.compute w c) (ls.computeOnce c) := by
  have hstart : Progress.Sound ls ⟨w, c.assignment, c.tally, true, 0, 0⟩ :=
    ⟨hw, hc.legal, hc.agrees⟩
  rw [compute, computeOn, computeOnce]
  refine (Run.simulates_self _).bind_eq fun _ => ?_
  refine (Run.simulates_self _).bind_eq fun _ => ?_
  refine (converge_simulates ready hstart).bind fun p walk hp => ?_
  obtain ⟨hsound, rfl⟩ := hp
  obtain ⟨cost, hcost⟩ := costIn_total ready hsound.legal.size_eq (.refl _)
  obtain ⟨cost', hcost'⟩ := allCost_total ready.graph hsound.legal.size_eq
  refine (Run.simulates_self _).bind_eq fun _ => ?_
  rw [evaluateIn, bind_assoc]
  refine (Run.simulates_self _).bind_eq fun _ => ?_
  rw [bind_assoc]
  refine .check hcost hcost' ?_
  rw [bind_assoc]
  refine (Run.simulates_self _).bind_eq fun _ => ?_
  rw [pure_bind]
  refine (Run.simulates_self _).bind_eq fun _ => ?_
  refine (Run.simulates_self _).bind_eq fun _ => ?_
  exact Run.simulates_pure
    ⟨rfl, rfl, rfl, hsound.legal.size_eq, ⟨cost, hcost, rfl⟩, ⟨cost', hcost', rfl⟩⟩

/-- Two searches in other blocks and the one without give the same, or none of them ends
within the rounds it is allowed. -/
theorem compute_alike {ls' : LocalSearch α} (ready : ls.Ready) (ready' : ls'.Ready)
    (hnodes : ls'.graph.nodeCount = ls.graph.nodeCount) (hk : ls'.k = ls.k) {w w' : Workspace α}
    (hw : w.Fits ls) (hw' : w'.Fits ls') {c : Candidate α}
    (hc : c.Sound ls.graph.nodeCount ls.k) (honce : ls'.computeOnce c = ls.computeOnce c)
    (scope : Scope α) :
    (ls.compute w c scope = .error .boundExceeded ∧
        ls'.compute w' c scope = .error .boundExceeded ∧
        ls.computeOnce c scope = .error .boundExceeded) ∨
      ∃ r r' once scope', ls.compute w c scope = .ok (r, scope') ∧
        ls'.compute w' c scope = .ok (r', scope') ∧
        ls.computeOnce c scope = .ok (once, scope') ∧
        ls.OnceImage r once ∧ ls'.OnceImage r' once := by
  have hc' : c.Sound ls'.graph.nodeCount ls'.k := by rwa [hnodes, hk]
  have hleft := compute_simulates ready hw hc scope scope rfl
  have hright := compute_simulates ready' hw' hc' scope scope rfl
  rw [honce] at hright
  have hschedule : ∀ i, (ls.inOrder i).Perm ls.partitions := fun _ => .refl _
  rcases computeOn_rounds ready hschedule hw hc scope with
    ⟨r, scope', hrun, -⟩ | ⟨fault, hrun, rfl, -⟩
  · right
    change ls.compute w c scope = .ok (r, scope') at hrun
    rw [hrun] at hleft
    obtain ⟨⟨once, scope₁⟩, honce', himage, hscope⟩ := hleft.exists_of_ok
    obtain rfl : scope' = scope₁ := hscope
    rw [honce'] at hright
    obtain ⟨⟨r', scope₂⟩, hrun', himage', hscope'⟩ := hright.exists_of_ok'
    obtain rfl : scope₂ = scope' := hscope'
    exact ⟨r, r', once, scope₂, hrun, hrun', honce', himage, himage'⟩
  · left
    change ls.compute w c scope = .error .boundExceeded at hrun
    rw [hrun] at hleft
    have honce' := hleft.eq_error
    rw [honce'] at hright
    exact ⟨hrun, hright.eq_error', honce'⟩

end

/-! ### Exact weights -/

section

variable {ls : LocalSearch Rat}

/-- With exact weights the sum over all nodes is the weight of the cut. -/
theorem allCost_eq (wf : ls.graph.WellFormed) {a : Assignment} (ha : a.size = ls.graph.nodeCount) :
    ls.allCost a = .ok (ls.graph.cut a) := by
  rw [allCost, foldlM_add (fun v hv sum => addCut_eq wf ha (List.mem_range.1 hv) sum), ok_bind,
    zero_add, sum_map_range, ← Graph.sum_cutFrom wf a]
  cases ls.graph.undirected with
  | true => simp
  | false => simp

/-- The costs are equal then as well. -/
theorem OnceImage.candidate_eq (ready : ls.Ready)
    {r : LocalSearchOutcome × Workspace Rat × Candidate Rat}
    {once : LocalSearchOutcome × Candidate Rat} (h : ls.OnceImage r once) : once.2 = r.2.2 := by
  obtain ⟨cost, hcost, heq⟩ := h.cost_eq
  obtain ⟨cost', hcost', heq'⟩ := h.cost_eq'
  rw [costIn_eq ready.graph h.size_eq (ready.perm_nodes (.refl _))] at hcost
  rw [allCost_eq ready.graph h.size_eq] at hcost'
  obtain rfl : cost = cost' := (Except.ok.inj hcost).symm.trans (Except.ok.inj hcost')
  calc once.2 = ⟨once.2.assignment, once.2.tally, once.2.cost⟩ := rfl
    _ = ⟨r.2.2.assignment, r.2.2.tally, r.2.2.cost⟩ := by
      rw [h.assignment_eq, h.tally_eq, heq, heq']

end

/-- **Blocks change nothing but the order of summation.** Whatever their blocks and buffers
are, two searches from one candidate have the same outcome, the same assignment and the same
counts, make the same entries and hear the same answers, and so does the search that goes
through all nodes in one pass per phase; unless rounded weights let all three go round in
circles. With exact weights all three return, and the costs are the same too. -/
theorem blocks_change_nothing :
    (∀ {α : Type} [Weight α] [Weight.Ordered α] {l : EdgeList α} {g : Graph α},
      l.build = .ok g → g.nodeCount < Tally.modulus →
      ∀ (objective : Objective) (k : Nat) (minSizes : Array Nat), minSizes.size = k →
      ∀ concurrency minBatch concurrency' minBatch' : Nat,
      let ls : LocalSearch α := .new g objective k minSizes concurrency minBatch
      let ls' : LocalSearch α := .new g objective k minSizes concurrency' minBatch'
      let once := computeOnce (unblocked g objective k minSizes)
      ∀ (w w' : Workspace α) (c : Candidate α) (scope : Scope α),
        w.Fits ls → w'.Fits ls' → c.Sound g.nodeCount k →
        (ls.compute w c scope = .error .boundExceeded ∧
          ls'.compute w' c scope = .error .boundExceeded ∧
          once c scope = .error .boundExceeded) ∨
        ∃ outcome a t scope' w₁ w₂ cost₁ cost₂ cost₃,
          ls.compute w c scope = .ok ((outcome, w₁, ⟨a, t, cost₁⟩), scope') ∧
          ls'.compute w' c scope = .ok ((outcome, w₂, ⟨a, t, cost₂⟩), scope') ∧
          once c scope = .ok ((outcome, ⟨a, t, cost₃⟩), scope')) ∧
    ∀ {l : EdgeList Rat} {g : Graph Rat}, l.build = .ok g → g.nodeCount < Tally.modulus →
      ∀ (objective : Objective) (k : Nat) (minSizes : Array Nat), minSizes.size = k →
      ∀ concurrency minBatch concurrency' minBatch' : Nat,
      let ls : LocalSearch Rat := .new g objective k minSizes concurrency minBatch
      let ls' : LocalSearch Rat := .new g objective k minSizes concurrency' minBatch'
      let once := computeOnce (unblocked g objective k minSizes)
      ∀ (w w' : Workspace Rat) (c : Candidate Rat) (scope : Scope Rat),
        w.Fits ls → w'.Fits ls' → c.Sound g.nodeCount k →
        ∃ outcome c' scope' w₁ w₂,
          ls.compute w c scope = .ok ((outcome, w₁, c'), scope') ∧
          ls'.compute w' c scope = .ok ((outcome, w₂, c'), scope') ∧
          once c scope = .ok ((outcome, c'), scope') := by
  constructor
  · intro α _ _ l g hbuild hword objective k minSizes hmin concurrency minBatch concurrency'
      minBatch' ls ls' once w w' c scope hw hw' hc
    have wf := EdgeList.wellFormed_of_build hbuild
    have hsame : ls'.computeOnce c = ls.computeOnce c := by rw [computeOnce_new, computeOnce_new]
    have hboth := compute_alike (ready_new wf hword objective hmin concurrency minBatch)
      (ready_new wf hword objective hmin concurrency' minBatch') rfl rfl hw hw' hc hsame scope
    rw [computeOnce_new] at hboth
    rcases hboth with hnone | ⟨r, r', result, scope', hrun, hrun', honce, himage, himage'⟩
    · exact Or.inl hnone
    · right
      obtain ⟨outcome, w₁, a, t, cost₁⟩ := r
      obtain ⟨outcome', w₂, a', t', cost₂⟩ := r'
      obtain ⟨outcome'', a'', t'', cost₃⟩ := result
      obtain rfl : outcome'' = outcome := himage.outcome_eq
      obtain rfl : outcome'' = outcome' := himage'.outcome_eq
      obtain rfl : a'' = a := himage.assignment_eq
      obtain rfl : a'' = a' := himage'.assignment_eq
      obtain rfl : t'' = t := himage.tally_eq
      obtain rfl : t'' = t' := himage'.tally_eq
      exact ⟨_, _, _, scope', w₁, w₂, cost₁, cost₂, cost₃, hrun, hrun', honce⟩
  · intro l g hbuild hword objective k minSizes hmin concurrency minBatch concurrency' minBatch'
      ls ls' once w w' c scope hw hw' hc
    have wf := EdgeList.wellFormed_of_build hbuild
    have ready : ls.Ready := ready_new wf hword objective hmin concurrency minBatch
    have ready' : ls'.Ready := ready_new wf hword objective hmin concurrency' minBatch'
    have hsame : ls'.computeOnce c = ls.computeOnce c := by rw [computeOnce_new, computeOnce_new]
    have hboth := compute_alike ready ready' rfl rfl hw hw' hc hsame scope
    rw [computeOnce_new] at hboth
    rcases hboth with ⟨hnone, -⟩ | ⟨r, r', result, scope', hrun, hrun', honce, himage, himage'⟩
    · have hschedule : ∀ i, (ls.inOrder i).Perm ls.partitions := fun _ => .refl _
      obtain ⟨_, _, hrun, -⟩ := computeOn_gives ready hschedule hw hc scope
      rw [compute, hrun] at hnone
      cases hnone
    · obtain ⟨outcome, w₁, c₁⟩ := r
      obtain ⟨outcome', w₂, c₂⟩ := r'
      obtain ⟨outcome'', c'⟩ := result
      obtain rfl : outcome'' = outcome := himage.outcome_eq
      obtain rfl : outcome'' = outcome' := himage'.outcome_eq
      obtain rfl : c' = c₁ := himage.candidate_eq ready
      obtain rfl : c' = c₂ := himage'.candidate_eq ready'
      exact ⟨_, c', scope', w₁, w₂, hrun, hrun', honce⟩

/-- The directed triangle in two blocks, in one block in buffers that are not new, and in
no blocks. -/
theorem blocks_triangle :
    let g : Graph Rat := (EdgeList.triangle false).toGraph
    let ls : LocalSearch Rat := .new g .maximize 2 #[1, 0] 3 1
    let ls' : LocalSearch Rat := .new g .maximize 2 #[1, 0] 1 1000
    let once := computeOnce (unblocked g .maximize 2 #[1, 0])
    let used : Workspace Rat := ⟨Array.replicate 6 7, Array.replicate 3 .swapping⟩
    let c : Candidate Rat := ⟨#[0, 0, 0], #[3, 0], .worst⟩
    let scope : Scope Rat := .start 3 0 (.afterPolls 1)
    ls.partitions.length = 2 ∧ ls'.partitions.length = 1 ∧
    (∃ outcome a t scope' w₁ w₂ cost₁ cost₂ cost₃,
      ls.compute ls.workspace c scope = .ok ((outcome, w₁, ⟨a, t, cost₁⟩), scope') ∧
      ls'.compute used c scope = .ok ((outcome, w₂, ⟨a, t, cost₂⟩), scope') ∧
      once c scope = .ok ((outcome, ⟨a, t, cost₃⟩), scope') ∧ outcome.swaps = 1) ∧
    ∃ outcome c' scope' w₁ w₂,
      ls.compute ls.workspace c scope = .ok ((outcome, w₁, c'), scope') ∧
      ls'.compute used c scope = .ok ((outcome, w₂, c'), scope') ∧
      once c scope = .ok ((outcome, c'), scope') := by
  intro g ls ls' once used c scope
  have hbuild := EdgeList.build_triangle false
  have hc : c.Sound g.nodeCount 2 := ⟨by decide, by decide⟩
  have hw : ls.workspace.Fits ls := ⟨by decide +kernel, by decide +kernel⟩
  have hused : used.Fits ls' := ⟨by decide, by decide⟩
  have hrun : ((ls.compute ls.workspace c scope).toOption.map fun r => r.1.1.swaps) = some 1 := by
    decide +kernel
  refine ⟨by decide, by decide, ?_, blocks_change_nothing.2 hbuild (by decide) .maximize 2 #[1, 0]
    rfl 3 1 1 1000 ls.workspace used c scope hw hused hc⟩
  rcases blocks_change_nothing.1 hbuild (by decide) .maximize 2 #[1, 0] rfl 3 1 1 1000 ls.workspace
      used c scope hw hused hc with
    ⟨hfault, -⟩ | ⟨outcome, a, t, scope', w₁, w₂, cost₁, cost₂, cost₃, hcompute, hcompute', honce⟩
  · rw [hfault] at hrun
    exact nomatch hrun
  · rw [hcompute] at hrun
    exact ⟨outcome, a, t, scope', w₁, w₂, cost₁, cost₂, cost₃, hcompute, hcompute', honce,
      Option.some.inj hrun⟩

end KCut.LocalSearch
