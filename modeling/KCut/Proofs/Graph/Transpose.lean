import KCut.Proofs.Graph.Build
import KCut.Proofs.Graph.Cut
import KCut.Proofs.LocalSearch.Ready

/-!
# KCut.Proofs.Graph.Transpose

The reverse adjacency of a graph is its transpose.

What a node's reverse row has to hold is said by `Graph.entering`, in terms of what leaves the
other nodes and not of the rows that were filled: one relationship for each stored one that
leads to the node, from the lowest source to the highest and in storage order. The row is this
list (`incoming_row_eq`). A search on a directed graph sees the relationships that leave a node
and then those that enter it (`Graph.around`). So both ends of a pair see the same weights
(`around_weights_perm`), as they do in an undirected graph, where they are stored twice.
-/

namespace KCut

namespace Graph

variable {α : Type} [Weight α]

/-! ### Relationships by their ends -/

/-- The relationships stored at `v`, each with the weight that counts: one in a graph without
weights. -/
def leaving (g : Graph α) (v : Nat) : List (Arc α) :=
  (g.outgoing.row v).map fun a => ⟨a.target, if g.weighted then a.weight else 1⟩

/-- The relationships that lead to `v`, with their sources as targets: from the lowest source
to the highest, those of one source in storage order. -/
def entering (g : Graph α) (v : Nat) : List (Arc α) :=
  (List.range g.nodeCount).flatMap fun s =>
    ((g.leaving s).filter (·.target = v)).map fun a => ⟨s, a.weight⟩

/-- The relationships with `v` as one end, the other end as their target: those that leave it
and, in a directed graph, those that enter it. A loop is among them twice. -/
def around (g : Graph α) (v : Nat) : List (Arc α) :=
  g.leaving v ++ if g.undirected then [] else g.entering v

/-- The targets of all stored relationships, source by source: the keys by which the reverse
adjacency is sorted. -/
def allTargets (g : Graph α) : List Nat :=
  (List.range g.nodeCount).flatMap fun s => (g.leaving s).map (·.target)

theorem map_fst_reversed (g : Graph α) : g.reversed.map (·.1) = g.allTargets := by
  rw [reversed, allTargets, List.map_flatMap]
  refine List.flatMap_congr fun s _ => ?_
  rw [leaving, List.map_map, List.map_map]
  rfl

end Graph

namespace EdgeList

variable {α : Type} [Weight α] {l : EdgeList α} {g : Graph α} {v : Nat}

/-- In a list without weights all relationships weigh one. -/
theorem weight_of_not_weighted (h : l.edges.any (·.weight.isSome) = false) :
    ∀ e ∈ l.stored, e.2.weight = 1 := by
  intro e he
  obtain ⟨x, hx, hstored⟩ := List.mem_flatMap.1 he
  have hnone : x.weight = none := by
    simpa using List.any_eq_false.1 h x hx
  have hone : x.weightOrOne = 1 := by rw [Edge.weightOrOne, hnone, Option.getD_none]
  rw [Edge.stored, List.mem_cons] at hstored
  rcases hstored with rfl | hback
  · exact hone
  · split at hback
    · rw [List.mem_singleton.1 hback]
      exact hone
    · exact absurd hback List.not_mem_nil

/-- A built graph stores the weights that count. -/
theorem leaving_eq_row (h : l.build = .ok g) (hv : v < g.nodeCount) :
    g.leaving v = g.outgoing.row v := by
  obtain ⟨hnone, rfl⟩ := (build_eq_ok_iff l g).1 h
  have hweights : ∀ a ∈ l.toGraph.outgoing.row v,
      (⟨a.target, if l.toGraph.weighted then a.weight else 1⟩ : Arc α) = a := by
    intro a ha
    rw [row_toGraph hnone hv, Rows.withKey, List.mem_map] at ha
    obtain ⟨e, he, rfl⟩ := ha
    split
    · rfl
    · next hplain =>
      rw [← weight_of_not_weighted (Bool.eq_false_iff.2 hplain) e (List.mem_filter.1 he).1]
  rw [Graph.leaving, List.map_congr_left hweights, List.map_id']

/-- **The reverse row of a node holds what enters it.** -/
theorem incoming_row_eq (h : l.build = .ok g) (hv : v < g.nodeCount) :
    g.incoming.row v = g.entering v := by
  rw [(wellFormed_of_build h).incoming_row hv, Graph.reversed, Rows.withKey_flatMap,
    Graph.entering]
  refine List.flatMap_congr fun s hs => ?_
  rw [leaving_eq_row h (List.mem_range.1 hs), Rows.withKey, List.filter_map, List.map_map]
  rfl

/-- What a search sees of a node. -/
theorem incidents_eq_around (h : l.build = .ok g) (hv : v < g.nodeCount) :
    g.incidents v = g.around v := by
  rw [Graph.incidents, Graph.around, leaving_eq_row h hv, incoming_row_eq h hv]

/-- **Both ends of a pair see the same weights**, though not in the same order. -/
theorem around_weights_perm (h : l.build = .ok g) {u : Nat} (hv : v < g.nodeCount)
    (hu : u < g.nodeCount) :
    (((g.around v).filter (·.target = u)).map (·.weight)).Perm
      (((g.around u).filter (·.target = v)).map (·.weight)) := by
  have wf := wellFormed_of_build h
  rw [← incidents_eq_around h hv, ← incidents_eq_around h hu, wf.incidents_between hv hu,
    wf.incidents_between hu hv]
  cases hdir : g.undirected with
  | true => rw [wf.between_comm hdir hv hu]
  | false => exact List.perm_append_comm

end EdgeList

/-! ### The transpose -/

namespace Graph

variable {α : Type} [Weight α]

/-- The reverse adjacency of a graph is its transpose, and a search sees all relationships of a
node, whichever end they are stored at. -/
structure Transposed (g : Graph α) : Prop where
  /-- What leaves a node is what a traversal of it reports, with one for the weights that are
  not there. -/
  visits_eq : ∀ v < g.nodeCount,
    g.visits 1 v = .ok ((g.leaving v).map fun a => (v, a.target, a.weight))
  row?_eq : ∀ v < g.nodeCount, g.incoming.row? v = .ok (g.entering v)
  incident_eq : ∀ (objective : Objective) (k : Nat) (minSizes : Array Nat)
    (concurrency minBatch : Nat), ∀ v < g.nodeCount,
    (LocalSearch.new g objective k minSizes concurrency minBatch).incident v = .ok (g.around v)
  mem_around_comm : ∀ v < g.nodeCount, ∀ u < g.nodeCount,
    (∃ a ∈ g.around v, a.target = u) ↔ ∃ a ∈ g.around u, a.target = v
  /-- The weights between two nodes are the same ones from both sides. -/
  weights_perm : ∀ v < g.nodeCount, ∀ u < g.nodeCount,
    (((g.around v).filter (·.target = u)).map (·.weight)).Perm
      (((g.around u).filter (·.target = v)).map (·.weight))
  /-- While the reverse rows are being filled, each relationship is given a slot. -/
  size_slots : (Rows.slots g.incoming.offsets g.allTargets).size = g.allTargets.length
  /-- It is one of the slots of its target. -/
  slots_mem_row : ∀ e ∈ g.allTargets.zip (Rows.slots g.incoming.offsets g.allTargets).toList,
    g.incoming.offsets.getD e.1 0 ≤ e.2 ∧ e.2 < g.incoming.offsets.getD (e.1 + 1) 0

theorem transposed_of_build {l : EdgeList α} {g : Graph α} (h : l.build = .ok g) :
    g.Transposed := by
  have wf := EdgeList.wellFormed_of_build h
  have hkeys : ∀ k ∈ g.reversed.map (·.1), k < g.nodeCount := by
    intro k hk
    obtain ⟨e, he, rfl⟩ := List.mem_map.1 hk
    exact wf.reversed_lt e he
  have hperm : ∀ v < g.nodeCount, ∀ u < g.nodeCount,
      (((g.around v).filter (·.target = u)).map (·.weight)).Perm
        (((g.around u).filter (·.target = v)).map (·.weight)) :=
    fun v hv u hu => EdgeList.around_weights_perm h hv hu
  refine ⟨fun v hv => ?_, fun v hv => ?_, fun _ _ _ _ _ v hv => ?_, fun v hv u hu => ?_, hperm,
    ?_, ?_⟩
  · rw [visits, wf.arcs_eq hv, ok_bind, pure_eq_ok, leaving, List.map_map]
    rfl
  · rw [← EdgeList.incoming_row_eq h hv]
    exact Rows.row?_ofList _ hv
  · rw [LocalSearch.incident_of_wellFormed wf (by rw [LocalSearch.new]) hv]
    exact congrArg _ (EdgeList.incidents_eq_around h hv)
  · -- A node is seen iff one of its weights is.
    have hseen : ∀ x y : Nat, (∃ a ∈ g.around x, a.target = y) ↔
        ((g.around x).filter (·.target = y)).map (·.weight) ≠ [] := by
      intro x y
      simp [List.filter_eq_nil_iff]
    rw [hseen, hseen, ← List.length_pos_iff, ← List.length_pos_iff, (hperm v hv u hu).length_eq]
  · rw [Rows.size_slots]
  · rw [← map_fst_reversed]
    exact Rows.slots_ofList_mem_row hkeys

/-- **The reverse adjacency of a graph is its exact transpose.** With exact weights the total
weight between two nodes is the same from both ends. -/
theorem incoming_transposes :
    (∀ {α : Type} [Weight α] {l : EdgeList α} {g : Graph α}, l.build = .ok g → g.Transposed) ∧
    ∀ {l : EdgeList Rat} {g : Graph Rat}, l.build = .ok g →
      ∀ v < g.nodeCount, ∀ u < g.nodeCount,
        weightTo (g.around v) u = weightTo (g.around u) v := by
  refine ⟨fun h => transposed_of_build h, ?_⟩
  intro l g h v hv u hu
  exact ((transposed_of_build h).weights_perm v hv u hu).sum_eq

/-- The directed triangle: two parallel relationships enter node 1, and a loop is both what
leaves node 2 and what enters it. -/
theorem transposed_triangle :
    let g : Graph Rat := (EdgeList.triangle false).toGraph
    g.incoming.row? 1 = .ok [⟨0, 2⟩, ⟨0, 1⟩] ∧ g.incoming.row? 2 = .ok [⟨1, -1⟩, ⟨2, 5⟩] ∧
      weightTo (g.around 0) 1 = 3 ∧ weightTo (g.around 1) 0 = 3 := by
  intro g
  have hbuild := EdgeList.build_triangle false
  have htransposed : g.Transposed := incoming_transposes.1 hbuild
  have hparallel : g.entering 1 = [⟨0, 2⟩, ⟨0, 1⟩] := by decide +kernel
  have hloop : g.entering 2 = [⟨1, -1⟩, ⟨2, 5⟩] := by decide +kernel
  have hweight : weightTo (g.around 0) 1 = 3 := by decide +kernel
  refine ⟨?_, ?_, hweight, ?_⟩
  · rw [htransposed.row?_eq 1 (by decide), hparallel]
  · rw [htransposed.row?_eq 2 (by decide), hloop]
  · rw [← incoming_transposes.2 hbuild 0 (by decide) 1 (by decide), hweight]

end Graph

end KCut
