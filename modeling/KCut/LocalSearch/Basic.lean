import KCut.Candidate
import KCut.Partition
import KCut.Graph.Incoming

/-!
# KCut.LocalSearch.Basic

What a local search knows of its problem, and the buffers it works in.

Design points:

* The neighbors of a node are its *incident* relationships: those stored at the
  node, followed in a directed graph by those that enter it. Incidence is
  symmetric in both kinds of graph, which moving a node relies on.
* The table of affinities is flat: the entry for node `v` and community `c`
  lies at `v * k + c`. It is filled block by block, in the order of the
  partitions.
* The workspace is kept from one search to the next. Nothing that a search
  reads from it was written before that search.
* `setUp` prepares a search with each access to the graph and the number of
  cells of the table checked. On a graph that was built it gives the same as
  `new`.
-/

namespace KCut

/-- A local search on a graph. -/
structure LocalSearch (α : Type) where
  graph : Graph α
  /-- Whether heavier or lighter cuts are better. -/
  objective : Objective
  k : Nat
  /-- The size down to which nodes may leave each community. -/
  minSizes : Array Nat
  /-- The blocks of nodes that are handed to workers. -/
  partitions : List Partition
  /-- The relationships that enter each node; only for directed graphs. -/
  incoming : Option (Rows (Arc α))

/-- The state of a node during the second phase of a round. -/
inductive Mark
  /-- Neither the node nor a neighbor has moved. -/
  | untouched
  /-- The node is moving, or has moved. -/
  | swapping
  /-- A neighbor is moving, or has moved: the affinities of the node are stale. -/
  | shouldNotSwap
deriving Repr, DecidableEq, Inhabited

/-- Buffers that local searches on one graph share. -/
structure Workspace (α : Type) where
  /-- The affinity of each node to each community, as of the last round. -/
  affinities : Array α
  /-- The state of each node in the last round. -/
  marks : Array Mark
deriving Repr

namespace LocalSearch

variable {α : Type} [Weight α]

/-- A local search on a graph, in blocks of about equal work for `concurrency`
workers. -/
def new (g : Graph α) (objective : Objective) (k : Nat) (minSizes : Array Nat)
    (concurrency minBatch : Nat) : LocalSearch α where
  graph := g
  objective := objective
  k := k
  minSizes := minSizes
  partitions := Partition.byDegree g.degrees concurrency minBatch
  incoming := if g.undirected then none else some g.incoming

/-- The same search, prepared with each access to the graph checked; a fault if
the number of cells of its table is no word. -/
def setUp (g : Graph α) (objective : Objective) (k : Nat) (minSizes : Array Nat)
    (concurrency minBatch : Nat) : Except Fault (LocalSearch α) := do
  let degrees ← (List.range g.nodeCount).mapM g.degree
  let _ ← Checked.mul g.nodeCount k
  let incoming ← if g.undirected then pure none else some <$> g.sortIncoming
  return {
    graph := g
    objective := objective
    k := k
    minSizes := minSizes
    partitions := Partition.byDegree degrees concurrency minBatch
    incoming := incoming }

/-- The buffers for searches on a graph. -/
def workspace (ls : LocalSearch α) : Workspace α where
  affinities := Array.replicate (ls.graph.nodeCount * ls.k) 0
  marks := Array.replicate ls.graph.nodeCount .untouched

/-- The relationships that have `v` as one end, with the other end as their
target. -/
def incident (ls : LocalSearch α) (v : Nat) : Except Fault (List (Arc α)) := do
  let outgoing ← ls.graph.arcs v
  match ls.incoming with
  | none => return outgoing
  | some rows => return outgoing ++ (← rows.row? v)

/-- A one-line description of a local search. -/
def describe (ls : LocalSearch α) : String :=
  Text.record "LocalSearch" [
    ("objective", ls.objective.title),
    ("k", toString ls.k),
    ("min_community_sizes", Text.sequence (ls.minSizes.toList.map toString)),
    ("partitions", toString ls.partitions.length)]

end LocalSearch

end KCut
