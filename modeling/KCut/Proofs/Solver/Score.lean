import KCut.Solver
import KCut.Proofs.Graph.EdgeWeight
import KCut.Proofs.LocalSearch.Cost
import KCut.Proofs.Run

/-!
# KCut.Proofs.Solver.Score

What a cost means to the caller of a graph's builder.

A search adds up the costs of its blocks, the independent check walks over the whole
graph, and the builder has stored some edges twice: all of them count the given
edges, each of them once (`cost_is_weight_of_given_edges`).
-/

namespace KCut.Solver

/-- The buffers after the candidate in the current slot was scored: its cost cell holds
the weight of its cut, whatever it held before. -/
def Buffers.scored (b : Buffers Rat) (g : Graph Rat) : Buffers Rat :=
  { b with arena := { b.arena with
    current := ⟨b.arena.current.assignment, .of (g.cut b.arena.current.assignment)⟩ } }

/-- The score of a candidate changes its cost cell and nothing else of the buffers. -/
theorem score_writes {s : Solver Rat} (wf : s.graph.WellFormed) {b : Buffers Rat}
    (hb : b.arena.current.assignment.size = s.graph.nodeCount) (scope : Scope Rat) :
    (s.score b).Gives scope fun b' scope' => b' = b.scored s.graph ∧ scope.Quiet [] scope' := by
  have hnodes := LocalSearch.flatMap_nodes_new s.graph s.config.objective s.config.k
    s.config.resolvedMinSizes.toArray s.config.concurrency s.config.minBatchSize
  have hcost : s.localSearch.evaluate b.arena.current.assignment scope = .ok _ :=
    LocalSearch.evaluateIn_eq wf hb (List.Perm.of_eq hnodes) scope
  rw [score]
  refine Run.gives_bind.2 ⟨_, _, hcost, Run.gives_pure.2 ⟨rfl, ?_⟩⟩
  exact ((Scope.Quiet.refl scope).task _).task _

variable {l : EdgeList Rat} {g : Graph Rat} {a : Assignment}

/-- **A cost is the weight of the given edges that are cut**, each of them counted
once. A search computes it for any number of workers and in any order of their
blocks, the score of a trial replaces whatever its cost cell held, and the check of a
cost gives the same. The total weight is that of all given edges. Traversals with
either fallback see the weights that are counted. -/
theorem cost_is_weight_of_given_edges (hbuild : l.build = .ok g) (ha : a.size = g.nodeCount) :
    (∀ (objective : Objective) (k : Nat) (minSizes : Array Nat) (concurrency minBatch : Nat)
      (scope : Scope Rat),
      let ls : LocalSearch Rat := .new g objective k minSizes concurrency minBatch
      let scored := Except.ok (Score.of (l.cutWeight a.community), { scope with
        journal := (scope.journal.push (.task (.began .computeCost))).push
          (.task (.ended .computeCost)) })
      ls.evaluate a scope = scored ∧
        ∀ order : List Partition, order.Perm ls.partitions → ls.evaluateIn order a scope = scored) ∧
    (∀ (s : Solver Rat) (b : Buffers Rat) (scope : Scope Rat), s.graph = g →
      b.arena.current.assignment = a →
      ∃ scope', s.score b scope = .ok ({ b with
        arena := { b.arena with current := ⟨a, .of (l.cutWeight a.community)⟩ } }, scope')) ∧
    g.cutWeight a = .ok (l.cutWeight a.community) ∧
    g.totalEdgeWeight = l.totalWeight ∧
    ∀ v < g.nodeCount,
      (g.visits 1 v).map (List.map fun x => ⟨x.2.1, x.2.2⟩) = g.arcs v ∧
      ∀ fallback, (g.visits fallback v).map
        (List.map fun x => ⟨x.2.1, if g.weighted then x.2.2 else 1⟩) = g.arcs v := by
  have wf := EdgeList.wellFormed_of_build hbuild
  rw [← EdgeList.cut_eq_cutWeight hbuild]
  refine ⟨?_, ?_, Graph.cutWeight_eq wf ha, EdgeList.totalEdgeWeight_eq hbuild, ?_⟩
  · intro objective k minSizes concurrency minBatch scope ls scored
    have hin : ∀ order : List Partition, order.Perm ls.partitions →
        ls.evaluateIn order a scope = scored := by
      intro order horder
      have hnodes := horder.flatMap_right Partition.nodes
      rw [LocalSearch.flatMap_nodes_new] at hnodes
      exact LocalSearch.evaluateIn_eq wf ha hnodes scope
    exact ⟨hin ls.partitions (List.Perm.refl _), hin⟩
  · intro s b scope hgraph hassignment
    subst hgraph hassignment
    obtain ⟨b', scope', hscore, rfl, -⟩ := score_writes wf ha scope
    exact ⟨scope', hscore⟩
  · intro v hv
    constructor
    · exact EdgeList.map_visits_one hbuild hv
    · intro fallback
      exact EdgeList.map_visits hbuild fallback hv

/-- The undirected triangle with node 1 apart from the others: the blocks of three
workers, summed from the last one to the first, and the check of the cost. -/
theorem cost_triangle :
    let g := (EdgeList.triangle true).toGraph
    let ls : LocalSearch Rat := .new g .minimize 2 #[0, 0] 3 1
    (∃ scope', ls.evaluateIn ls.partitions.reverse #[0, 1, 0] (.start 3 0 .never) =
      .ok (.of 2, scope')) ∧
    g.cutWeight #[0, 1, 0] = .ok 2 ∧ g.totalEdgeWeight = 8 := by
  intro g ls
  have hcut : (EdgeList.triangle true).cutWeight (Assignment.community #[0, 1, 0]) = 2 := by
    decide +kernel
  have htotal : (EdgeList.triangle true).totalWeight = 8 := by decide +kernel
  obtain ⟨hsearch, -, hcheck, hall, -⟩ :=
    cost_is_weight_of_given_edges (EdgeList.build_triangle true) (a := #[0, 1, 0]) rfl
  obtain ⟨-, hin⟩ := hsearch .minimize 2 #[0, 0] 3 1 (.start 3 0 .never)
  rw [hcut] at hin hcheck
  exact ⟨⟨_, hin _ (List.reverse_perm _)⟩, hcheck, hall.trans htotal⟩

end KCut.Solver
