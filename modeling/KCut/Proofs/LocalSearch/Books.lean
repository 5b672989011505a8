import KCut.Proofs.Graph.Incidence
import KCut.Proofs.LocalSearch.Rounds

/-!
# KCut.Proofs.LocalSearch.Books

A local search keeps its books.

Whatever stops a search, what it returns is counted right and scored, and it has taken
no node from a community that was at its minimum or below. So every community has the
nodes it must have, or as many as it started with (`Rounds.spares`).
-/

namespace KCut.LocalSearch

variable {α : Type} [Weight α] {ls : LocalSearch α}

theorem evaluateIn_of_cost {order : List Partition} {a : Assignment} {cost : α}
    (hcost : ls.costIn order a = .ok cost) (scope : Scope α) :
    ∃ scope', ls.evaluateIn order a scope = .ok (.of cost, scope') := by
  rw [evaluateIn, hcost]
  exact ⟨_, rfl⟩

/-- **A local search keeps the books.** Whenever it returns, its assignment is legal, the
tally holds the sizes of its communities, which add up to the number of nodes, no community has
fallen below its minimum unless it was there at the start, and then it has lost nothing; and the
cost is what scoring the assignment gives. -/
theorem search_keeps_books [Weight.Ordered α] {l : EdgeList α} {g : Graph α}
    (hbuild : l.build = .ok g) (hword : g.nodeCount < Tally.modulus) {objective : Objective}
    {k concurrency minBatch : Nat} {minSizes : Array Nat} (hmin : minSizes.size = k)
    (hls : ls = .new g objective k minSizes concurrency minBatch) {schedule : Schedule}
    (hschedule : ∀ i, (schedule i).Perm ls.partitions) {w : Workspace α} (hw : w.Fits ls)
    {c : Candidate α} (hc : c.Sound g.nodeCount k) (scope : Scope α) :
    ls.computeOn schedule w c scope = .error .boundExceeded ∨
      ∃ outcome w' c' scope' sizes,
        ls.computeOn schedule w c scope = .ok ((outcome, w', c'), scope') ∧
        c'.assignment.size = g.nodeCount ∧ (∀ community ∈ c'.assignment, community < k) ∧
        c'.assignment.communitySizes k = .ok sizes ∧ c'.tally = sizes ∧
        sizes.toList.sum = g.nodeCount ∧
        (∀ i < k, min (c.tally.getD i 0) (minSizes.getD i 0) ≤ sizes.getD i 0) ∧
        ∀ scope₁, ∃ scope₂, ls.evaluateIn (schedule outcome.rounds) c'.assignment scope₁ =
          .ok (c'.cost, scope₂) := by
  have ready : ls.Ready := by
    rw [hls]
    exact ready_new (EdgeList.wellFormed_of_build hbuild) hword objective hmin concurrency minBatch
  obtain rfl : ls.graph = g := by rw [hls]; rfl
  obtain rfl : ls.k = k := by rw [hls]; rfl
  obtain rfl : ls.minSizes = minSizes := by rw [hls]; rfl
  rcases computeOn_rounds ready hschedule hw hc scope with
    ⟨r, scope', hcompute, p, cost, hrounds, hcost, rfl, -⟩ | ⟨fault, hcompute, rfl, -⟩
  · right
    have hsound := hrounds.sound ready ⟨hw, hc.legal, hc.agrees⟩
    have hend : Candidate.Sound ⟨p.assignment, p.tally, .of cost⟩ ls.graph.nodeCount ls.k :=
      ⟨hsound.legal, hsound.agrees⟩
    obtain ⟨sizes, hsize, hlegal, hsizes, htally, hsum, hleast⟩ :=
      hc.sizes_of_spares hend (hrounds.spares ready)
    exact ⟨_, _, _, scope', sizes, hcompute, hsize, hlegal, hsizes, htally, hsum, hleast,
      evaluateIn_of_cost hcost⟩
  · exact Or.inl hcompute

/-- The directed triangle, with a community that starts without a node although its minimum
is two. A node moves there and the other community, which has to keep two nodes, does. -/
theorem books_triangle :
    let ls : LocalSearch Rat := .new (EdgeList.triangle false).toGraph .maximize 2 #[2, 2] 3 1
    let c : Candidate Rat := ⟨#[0, 0, 0], #[3, 0], .worst⟩
    ∃ r scope' sizes, ls.compute ls.workspace c (.start 3 0 .never) =
        .ok (r, scope') ∧
      r.1.swaps = 1 ∧ r.2.2.assignment.communitySizes 2 = .ok sizes ∧ r.2.2.tally = sizes ∧
      sizes.toList.sum = 3 ∧ 2 ≤ sizes.getD 0 0 ∧
      ∃ scope₂, ls.evaluate r.2.2.assignment scope' = .ok (r.2.2.cost, scope₂) := by
  intro ls c
  have hc : c.Sound (EdgeList.triangle false).toGraph.nodeCount 2 := ⟨by decide, by decide⟩
  have hw : ls.workspace.Fits ls := ⟨by decide +kernel, by decide +kernel⟩
  have hrun : ((ls.computeOn ls.inOrder ls.workspace c (.start 3 0 .never)).toOption.map
      fun r => r.1.1.swaps) = some 1 := by decide +kernel
  have hschedule : ∀ i, (ls.inOrder i).Perm ls.partitions := fun _ => .refl _
  rcases search_keeps_books (EdgeList.build_triangle false) (by decide) (k := 2) rfl (Eq.refl ls)
      hschedule hw hc (.start 3 0 .never) with
    hfault | ⟨outcome, w', c', scope', sizes, hcompute, -, -, hsizes, htally, hsum, hleast, hcost⟩
  · rw [hfault] at hrun
    exact nomatch hrun
  · rw [hcompute] at hrun
    exact ⟨_, scope', sizes, hcompute, Option.some.inj hrun, hsizes, htally, hsum,
      hleast 0 (by decide), hcost scope'⟩

end KCut.LocalSearch
