import KCut.LocalSearch.Basic
import KCut.Proofs.Candidate
import KCut.Proofs.Graph.Incidence
import KCut.Proofs.Partition

/-!
# KCut.Proofs.LocalSearch.Ready

What holds of every local search that was set up for a well-formed graph: its
blocks cover the nodes, and it sees all incident relationships.
-/

namespace KCut.LocalSearch

variable {α : Type} [Weight α]

/-- The search sees its graph from both ends, a counter can count its nodes, its
blocks are a cover, none of them is empty, and there is a minimum for each
community. -/
structure Ready (ls : LocalSearch α) : Prop where
  graph : ls.graph.WellFormed
  nodeCount_lt : ls.graph.nodeCount < Tally.modulus
  incoming_eq : ls.incoming = if ls.graph.undirected then none else some ls.graph.incoming
  nodes_eq : ls.partitions.flatMap Partition.nodes = List.range ls.graph.nodeCount
  size_pos : ∀ p ∈ ls.partitions, 0 < p.size
  size_minSizes : ls.minSizes.size = ls.k

/-- The blocks of a search list the nodes of its graph. -/
theorem flatMap_nodes_new (g : Graph α) (objective : Objective) (k : Nat) (minSizes : Array Nat)
    (concurrency minBatch : Nat) :
    (LocalSearch.new g objective k minSizes concurrency minBatch).partitions.flatMap
      Partition.nodes = List.range g.nodeCount := by
  rw [LocalSearch.new, Partition.nodes_byDegree, Graph.degrees, List.length_map, List.length_range]

theorem ready_new {g : Graph α} (wf : g.WellFormed) (hword : g.nodeCount < Tally.modulus)
    (objective : Objective) {k : Nat} {minSizes : Array Nat} (hmin : minSizes.size = k)
    (concurrency minBatch : Nat) :
    (LocalSearch.new g objective k minSizes concurrency minBatch).Ready where
  graph := wf
  nodeCount_lt := hword
  incoming_eq := rfl
  nodes_eq := flatMap_nodes_new g objective k minSizes concurrency minBatch
  size_pos := Partition.size_pos_cutByDegree _ _ 0 0 0
  size_minSizes := hmin

/-- A search sees all incident relationships of a node. -/
theorem incident_of_wellFormed {ls : LocalSearch α} (wf : ls.graph.WellFormed)
    (hincoming : ls.incoming = if ls.graph.undirected then none else some ls.graph.incoming)
    {v : Nat} (hv : v < ls.graph.nodeCount) : ls.incident v = .ok (ls.graph.incidents v) := by
  rw [incident, wf.arcs_eq hv, ok_bind, hincoming, Graph.incidents]
  cases ls.graph.undirected with
  | true => simp
  | false =>
      have hrow : ls.graph.incoming.row? v = .ok (ls.graph.incoming.row v) :=
        Rows.row?_ofList _ hv
      simp [hrow]

namespace Ready

variable {ls : LocalSearch α}

theorem incident_eq (h : ls.Ready) {v : Nat} (hv : v < ls.graph.nodeCount) :
    ls.incident v = .ok (ls.graph.incidents v) :=
  incident_of_wellFormed h.graph h.incoming_eq hv

/-- In whatever order the blocks are visited, the nodes are, each of them once. -/
theorem perm_nodes (h : ls.Ready) {order : List Partition} (horder : order.Perm ls.partitions) :
    (order.flatMap Partition.nodes).Perm (List.range ls.graph.nodeCount) := by
  rw [← h.nodes_eq]
  exact horder.flatMap_right _

theorem nodup_nodes (h : ls.Ready) {order : List Partition} (horder : order.Perm ls.partitions) :
    (order.flatMap Partition.nodes).Nodup :=
  (h.perm_nodes horder).nodup_iff.2 List.nodup_range

theorem nodes_lt (h : ls.Ready) {order : List Partition} (horder : order.Perm ls.partitions) :
    ∀ v ∈ order.flatMap Partition.nodes, v < ls.graph.nodeCount := fun _ hv =>
  List.mem_range.1 ((h.perm_nodes horder).mem_iff.1 hv)

/-- A block starts behind the blocks before it. -/
theorem block_eq (h : ls.Ready) {done rest : List Partition} {p : Partition}
    (hl : ls.partitions = done ++ p :: rest) :
    (done.flatMap Partition.nodes).length + p.size ≤ ls.graph.nodeCount ∧
      p.nodes = List.range' (done.flatMap Partition.nodes).length p.size := by
  have hcover := h.nodes_eq
  rw [hl, List.flatMap_append, List.flatMap_cons] at hcover
  have hlength := congrArg List.length hcover
  rw [List.length_append, List.length_append, Partition.length_nodes, List.length_range] at hlength
  have hle : (done.flatMap Partition.nodes).length + p.size ≤ ls.graph.nodeCount := by omega
  refine ⟨hle, ?_⟩
  have hcut := congrArg (fun nodes =>
    (nodes.drop (done.flatMap Partition.nodes).length).take p.size) hcover
  rw [List.drop_left, List.take_left' p.length_nodes, List.range_eq_range', List.drop_range',
    List.take_range'_of_length_ge (by omega), Nat.mul_one, Nat.zero_add] at hcut
  exact hcut

theorem minSizes_read (h : ls.Ready) {c : Nat} (hc : c < ls.k) :
    Buffer.read ls.minSizes c = .ok (ls.minSizes.getD c 0) :=
  Buffer.read_eq_getD (h.size_minSizes ▸ hc) 0

end Ready

end KCut.LocalSearch
