import KCut.Proofs.Graph.EdgeWeight
import KCut.Proofs.Solver.Answer

/-!
# KCut.Proofs.Solver.Optimum

The answer of a run that is never stopped.

Every candidate that competes in such a run has come out of a local search that
converged, so the answer is stable (`compute_settled`): no move of a single node makes
its cut better, unless a community has no node to spare
(`answer_is_local_optimum`). Without minimums it cuts at least its share of all
weights (`answer_cuts_share`).
-/

namespace KCut.Solver

open NeighborhoodSearch (Overflow)

/-- Something was scored if the run was never stopped. -/
theorem nothingScored_of_running {maxOrder : Nat} {answers : List Bool} (hne : answers ≠ [])
    (hrunning : true ∉ answers) : nothingScored maxOrder answers = false := by
  match answers with
  | [] => exact absurd rfl hne
  | true :: _ => simp at hrunning
  | false :: false :: true :: _ => simp at hrunning
  | [false] | false :: true :: _ | [false, false] | false :: false :: false :: _ => rfl

/-- The answer is a stable candidate above all minimums with the weight of its cut. -/
structure Settled (s : Solver Rat) (answer : Answer Rat) : Prop where
  legal : answer.assignment.Legal s.graph.nodeCount s.config.k
  fills : answer.assignment.Fills s.config.resolvedMinSizes.toArray s.config.k
  cost_eq : answer.cost = .of (s.graph.cut answer.assignment)
  stable : s.localSearch.Stable answer.assignment

/-- **A run that is never stopped has a stable answer**, unless two community ids
overflow. -/
theorem compute_settled {s : Solver Rat} (hs : s.Suits) (hnever : s.condition.NeverFires)
    (seed : UInt64) :
    (∃ fault, s.compute seed = .error fault ∧
      Overflow s.config.vnsMaxNeighborhoodOrder s.config.k fault) ∨
    ∃ report, s.compute seed = .ok report ∧ Settled s report.answer := by
  refine (compute_concluded hs seed).imp_right ?_
  intro hreport
  obtain ⟨report, best, scope, hcompute, h⟩ := hreport
  obtain ⟨condition, hasked⟩ := h.asked
  have hrunning := hnever.answers hasked
  -- No poll has stopped a search, so no trial was lost.
  have hheld : Held s best scope := by
    have hslot := h.slot
    rw [nothingScored_of_running h.answers_ne_nil hrunning] at hslot
    exact hslot
  have hstable : s.localSearch.Stable best.assignment := by
    refine h.stable hrunning ?_
    rw [hheld.cost_eq]
    exact nofun
  refine ⟨report, hcompute, ?_⟩
  rw [h.answer_eq]
  exact ⟨hheld.legal, hheld.fills, hheld.cost_eq, hstable⟩

section

variable {l : EdgeList Rat} {g : Graph Rat} {c : Config}

/-- **The answer of a run that is never stopped is a local optimum.** Unless two
community ids overflow, the run has an answer with the weight of its cut, and no move
of one node to another community makes that cut better, except where the community
that the node would leave is down at its minimum. -/
theorem answer_is_local_optimum (hbuild : l.build = .ok g) (hpos : 0 < g.nodeCount)
    (hword : g.nodeCount < Tally.modulus) (haccepted : c.problemFor? g.nodeCount = .ok none)
    (hk : c.k < 2 ^ 32) (minBatch : Nat) (termination : Option Termination) (listeners : Nat)
    (hnever : (Solver.condition (⟨g, c, .random minBatch, termination, listeners⟩ :
      Solver Rat)).NeverFires) (seed : UInt64) :
    let s : Solver Rat := ⟨g, c, .random minBatch, termination, listeners⟩
    (1 < c.vnsMaxNeighborhoodOrder ∧ 2 ^ 31 < c.k ∧
      ∃ sum, s.compute seed = .error (.overflow sum)) ∨
    ∃ report cost sizes, s.compute seed = .ok report ∧
      let a := report.answer.assignment
      report.answer.cost = .of cost ∧ g.cutWeight a = .ok cost ∧
      a.communitySizes c.k = .ok sizes ∧
      ∀ v < g.nodeCount, ∀ community < c.k, community ≠ a.community v →
        (∃ cost', g.cutWeight (a.setIfInBounds v community) = .ok cost' ∧
          ¬ c.objective.better cost' cost = true) ∨
        sizes.getD (a.community v) 0 = c.resolvedMinSizes.getD (a.community v) 0 := by
  intro s
  have hs : s.Suits :=
    suits_of_build hbuild hpos hword haccepted hk minBatch termination listeners
  cases compute_settled hs hnever seed with
  | inl hfault =>
      obtain ⟨fault, hcompute, horder, hwide, sum, rfl⟩ := hfault
      exact Or.inl ⟨horder, hwide, sum, hcompute⟩
  | inr hreport =>
      obtain ⟨report, hcompute, h⟩ := hreport
      obtain ⟨sizes, hsizes, hagrees, -⟩ := Assignment.communitySizes_eq h.legal
      refine Or.inr ⟨report, _, sizes, hcompute, h.cost_eq,
        Graph.cutWeight_eq hs.graph h.legal.size_eq, hsizes, ?_⟩
      intro v hv community hcommunity hne
      have hsize : sizes.getD (report.answer.assignment.community v) 0 =
          report.answer.assignment.count (report.answer.assignment.community v) :=
        hagrees.getD_eq (h.legal.community_lt hv)
      have hleast : s.localSearch.minSizes.getD (report.answer.assignment.community v) 0 =
          c.resolvedMinSizes.getD (report.answer.assignment.community v) 0 := by
        show c.resolvedMinSizes.toArray.getD _ 0 = _
        simp
      cases h.stable.not_better_move hs.graph h.legal h.fills hv hcommunity hne with
      | inl hworse =>
          refine Or.inl ⟨_, Graph.cutWeight_eq hs.graph ?_, hworse⟩
          rw [Array.size_setIfInBounds, h.legal.size_eq]
      | inr hcount =>
          rw [← hsize, hleast] at hcount
          exact Or.inr hcount

/-- The undirected triangle with a minimum of three nodes in community 0: node 0 would
be better off in the other community, but none can be spared. -/
theorem optimum_triangle :
    let s : Solver Rat := ⟨(EdgeList.triangle true).toGraph,
      { Config.default with
        iterations := 1
        vnsMaxNeighborhoodOrder := 1
        minCommunitySizes := [3, 0] },
      .random 1, none, 0⟩
    ∃ report sizes, s.compute 7 = .ok report ∧ report.answer.assignment = #[0, 0, 0] ∧
      report.answer.assignment.communitySizes 2 = .ok sizes ∧
      s.graph.cutWeight #[1, 0, 0] = .ok 4 ∧ sizes.getD 0 0 = 3 := by
  intro s
  have hrun : (s.compute 7).toOption.map (·.answer.assignment) = some #[0, 0, 0] := by
    decide +kernel
  have hstays : s.graph.cutWeight #[0, 0, 0] = .ok 0 := by decide +kernel
  have hmoves : s.graph.cutWeight #[1, 0, 0] = .ok 4 := by decide +kernel
  rcases answer_is_local_optimum (EdgeList.build_triangle true) (c := s.config) (by decide)
    (by decide) (by decide) (by decide) 1 none 0 (.of_poll_eq rfl) 7 with
    ⟨horder, -⟩ | ⟨report, cost, sizes, hcompute, hcost, hcut, hsizes, hoptimum⟩
  · exact absurd horder (by decide)
  rw [hcompute] at hrun
  have hassignment : report.answer.assignment = #[0, 0, 0] := Option.some.inj hrun
  refine ⟨report, sizes, hcompute, hassignment, hsizes, hmoves, ?_⟩
  rw [hassignment] at hcut hoptimum
  obtain rfl : (0 : Rat) = cost := Except.ok.inj (hstays.symm.trans hcut)
  rcases hoptimum 0 (by decide) 1 (by decide) (by decide) with ⟨cost', hcut', hworse⟩ | hleast
  · obtain rfl : (4 : Rat) = cost' := Except.ok.inj (hmoves.symm.trans hcut')
    exact absurd (by decide +kernel) hworse
  · exact hleast

/-- **The answer of a run without minimums that is never stopped cuts its share** of the
weights of all edges that are no loops: at least `k - 1` parts out of `k` where heavy
cuts are better, at most that where light ones are. -/
theorem answer_cuts_share (hbuild : l.build = .ok g) (hpos : 0 < g.nodeCount)
    (hword : g.nodeCount < Tally.modulus) (haccepted : c.problemFor? g.nodeCount = .ok none)
    (hk : c.k < 2 ^ 32) (hzero : ∀ least ∈ c.resolvedMinSizes, least = 0) (minBatch : Nat)
    (termination : Option Termination) (listeners : Nat)
    (hnever : (Solver.condition (⟨g, c, .random minBatch, termination, listeners⟩ :
      Solver Rat)).NeverFires) (seed : UInt64) :
    let s : Solver Rat := ⟨g, c, .random minBatch, termination, listeners⟩
    let total := ((l.edges.filter fun e => e.source ≠ e.target).map Edge.weightOrOne).sum
    (1 < c.vnsMaxNeighborhoodOrder ∧ 2 ^ 31 < c.k ∧
      ∃ sum, s.compute seed = .error (.overflow sum)) ∨
    ∃ report cost, s.compute seed = .ok report ∧ report.answer.cost = .of cost ∧
      (c.minimize = false → (c.k - 1) * total ≤ c.k * cost) ∧
      (c.minimize = true → c.k * cost ≤ (c.k - 1) * total) := by
  intro s total
  have hs : s.Suits :=
    suits_of_build hbuild hpos hword haccepted hk minBatch termination listeners
  cases compute_settled hs hnever seed with
  | inl hfault =>
      obtain ⟨fault, hcompute, horder, hwide, sum, rfl⟩ := hfault
      exact Or.inl ⟨horder, hwide, sum, hcompute⟩
  | inr hreport =>
      obtain ⟨report, hcompute, h⟩ := hreport
      have hleast : ∀ i < s.localSearch.k, s.localSearch.minSizes.getD i 0 = 0 := by
        intro i hi
        have hlt : i < c.resolvedMinSizes.length := hs.accepted.length_minSizes ▸ hi
        show c.resolvedMinSizes.toArray.getD i 0 = 0
        simpa [hlt] using hzero _ (List.getElem_mem hlt)
      have hshare : ¬ c.objective.better ((c.k - 1) * total)
          (c.k * g.cut report.answer.assignment) = true := by
        have htotal : _ = total := EdgeList.sum_link_erase hbuild
        rw [← htotal]
        exact h.stable.not_better_share h.legal hleast
      refine Or.inr ⟨report, _, hcompute, h.cost_eq, ?_, ?_⟩
      · intro hmaximize
        rw [Config.objective, hmaximize] at hshare
        simpa [Objective.ofMinimize] using hshare
      · intro hminimize
        rw [Config.objective, hminimize] at hshare
        simpa [Objective.ofMinimize] using hshare

/-- The undirected triangle in two communities, cut as heavily and as lightly as a run
makes it. Its edges that are no loops weigh three. -/
theorem share_triangle :
    let s (minimize : Bool) : Solver Rat := ⟨(EdgeList.triangle true).toGraph,
      { Config.default with iterations := 1, vnsMaxNeighborhoodOrder := 1, minimize }, .random 1,
      some (.predicate (fun _ => true) 0), 0⟩
    (∃ report cost, (s false).compute 7 = .ok report ∧ report.answer.cost = .of cost ∧
      3 ≤ 2 * cost) ∧
    ∃ report cost, (s true).compute 7 = .ok report ∧ report.answer.cost = .of cost ∧
      2 * cost ≤ 3 := by
  intro s
  have htotal : (((EdgeList.triangle true).edges.filter fun e => e.source ≠ e.target).map
      Edge.weightOrOne).sum = 3 := by
    decide +kernel
  have hshare (minimize : Bool) := answer_cuts_share (EdgeList.build_triangle true)
    (c := (s minimize).config) (by decide) (by decide) (by cases minimize <;> decide)
    (by cases minimize <;> decide) (by cases minimize <;> decide) 1
    (some (.predicate (fun _ => true) 0)) 0 (.predicate fun _ => rfl) 7
  dsimp only at hshare
  rw [htotal] at hshare
  have htwo (minimize : Bool) : (((s minimize).config.k : Nat) : Rat) = 2 := rfl
  constructor
  · rcases hshare false with ⟨horder, -⟩ | ⟨report, cost, hcompute, hcost, hheavy, -⟩
    · exact absurd horder (by decide)
    · have hcut := hheavy rfl
      rw [htwo] at hcut
      exact ⟨report, cost, hcompute, hcost, by linarith⟩
  · rcases hshare true with ⟨horder, -⟩ | ⟨report, cost, hcompute, hcost, -, hlight⟩
    · exact absurd horder (by decide)
    · have hcut := hlight rfl
      rw [htwo] at hcut
      exact ⟨report, cost, hcompute, hcost, by linarith⟩

end

end KCut.Solver
