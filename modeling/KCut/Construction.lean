import KCut.Partition
import KCut.Run

/-!
# KCut.Construction

How a trial builds its first candidate.

Design points:

* Random placement first reserves the minimum size of each community: a partial
  shuffle brings one node after another, picked from those not yet reserved, to
  the front of the node list. The other nodes draw their community.
* The free nodes are drawn block by block, each block from a stream of its own.
  The streams are split off before the first block is drawn, so the result
  does not depend on the order in which the blocks are done. A run draws them
  from the first to the last; `buildIn` takes any other order.
* Every cell of the buffers is overwritten. What they held before has no
  influence.
-/

namespace KCut

/-- A way to build the first candidate of a trial, for the given graph, minimum
sizes and trial number, in the given buffers. -/
structure Construction (α : Type) where
  description : String
  build : Graph α → (minSizes : Array Nat) → (trial : Nat) → Assignment → Tally →
    Run α (Assignment × Tally)

/-- The nodes of a graph while some of them are being reserved. -/
structure Reservation where
  /-- All nodes; the first `reserved` of them are taken. -/
  nodes : Array Nat
  reserved : Nat
  /-- The communities of the taken nodes, among others. -/
  assignment : Assignment

namespace Reservation

/-- Takes the node at position `pick` for a community: it changes places with
the first free one. -/
def take (r : Reservation) (community pick : Nat) : Except Fault Reservation := do
  let nodes ← Buffer.swap r.nodes r.reserved pick
  let node ← Buffer.read nodes r.reserved
  let assignment ← r.assignment.set node community
  return ⟨nodes, r.reserved + 1, assignment⟩

/-- Takes `count` nodes for a community, each picked from the free ones. -/
def takeMany {α : Type} (community : Nat) : Nat → Reservation → Run α Reservation
  | 0, r => return r
  | count + 1, r => do
      let pick ← Run.draw r.reserved r.nodes.size
      let r ← Run.check (r.take community pick)
      takeMany community count r

/-- Reserves the minimum sizes of the communities from `community` on, as far
as the nodes reach, and counts the reserved nodes. -/
def takeMinimums {α : Type} (community : Nat) :
    List Nat → Reservation × Tally → Run α (Reservation × Tally)
  | [], state => return state
  | minSize :: rest, (r, tally) => do
      let count := min minSize (← Run.check (Checked.sub r.nodes.size r.reserved))
      let r ← takeMany community count r
      let tally ← Run.check (tally.add community count)
      takeMinimums (community + 1) rest (r, tally)

end Reservation

namespace RandomPlacement

/-- A block of free nodes while their communities are being drawn. -/
structure Block where
  stream : Random.Stream
  assignment : Assignment
  /-- The nodes of the block in each community so far. -/
  counts : Array Nat

/-- Draws the community of one free node. -/
def Block.place (k : Nat) (b : Block) (node : Nat) : Except Fault Block := do
  let (community, stream) ← b.stream.range 0 k
  let assignment ← b.assignment.set node community
  let counts ← Buffer.update b.counts community (· + 1)
  return ⟨stream, assignment, counts⟩

/-- Adds the counts of a block to a tally, community by community. -/
def addCounts (tally : Tally) (counts : Array Nat) : Except Fault Tally :=
  counts.toList.zipIdx.foldlM
    (fun tally (count, community) =>
      if 0 < count then tally.add community count else .ok tally)
    tally

/-- Draws the communities of the free nodes in one block. -/
def placeBlock (k : Nat) (free : Array Nat) (state : Assignment × Tally)
    (task : Partition × Random.Stream) : Except Fault (Assignment × Tally) := do
  let (p, stream) := task
  let nodes ← Buffer.slice free p.start p.stop
  let block ← nodes.toList.foldlM (Block.place k) ⟨stream, state.1, Array.replicate k 0⟩
  return (block.assignment, ← addCounts state.2 block.counts)

/-- Splits off a stream for each block, in order. -/
def splitStreams {α : Type} : List Partition → Run α (List (Partition × Random.Stream))
  | [] => return []
  | p :: rest => do
      let stream ← Run.split
      return (p, stream) :: (← splitStreams rest)

/-- Places the nodes of a graph at random: minimum sizes first, then the free
nodes in blocks of at least `minBatch`, which are drawn in the given order. -/
def buildIn {α : Type}
    (order : List (Partition × Random.Stream) → List (Partition × Random.Stream))
    (minBatch : Nat) (g : Graph α) (minSizes : Array Nat)
    (assignment : Assignment) (tally : Tally) : Run α (Assignment × Tally) := do
  Run.begin .construction
  let k := tally.size
  let start : Reservation := ⟨Array.range g.nodeCount, 0, assignment⟩
  let (r, tally) ← Reservation.takeMinimums 0 (minSizes.toList.take k) (start, tally.reset)
  let free ← Run.check (Buffer.slice r.nodes r.reserved r.nodes.size)
  let partitions := Partition.byCount free.size (← Run.concurrency) minBatch
  let tasks ← splitStreams partitions
  let (assignment, tally) ←
    Run.check ((order tasks).foldlM (placeBlock k free) (r.assignment, tally))
  Run.note (.constructionEnd r.reserved free.size partitions.length)
  Run.finish .construction
  return (assignment, tally)

/-- Random placement with the blocks drawn from the first to the last. -/
def build {α : Type} (minBatch : Nat) (g : Graph α) (minSizes : Array Nat)
    (assignment : Assignment) (tally : Tally) : Run α (Assignment × Tally) :=
  buildIn id minBatch g minSizes assignment tally

end RandomPlacement

namespace Construction

/-- Random placement with blocks of at least `minBatch` free nodes. -/
def random {α : Type} (minBatch : Nat) : Construction α where
  description :=
    Text.record "RandomPlacement" [("min_batch_size", toString (max minBatch 1))]
  build g minSizes _ assignment tally :=
    RandomPlacement.build (max minBatch 1) g minSizes assignment tally

/-- The least number of free nodes in a block where nothing else is asked for. -/
def defaultMinBatch : Nat := 10000

/-- Writes a prepared assignment into the buffers of a candidate. -/
def writePrepared (prepared : List Nat) (assignment : Assignment) (tally : Tally) :
    Except Fault (Assignment × Tally) :=
  prepared.zipIdx.foldlM
    (fun (assignment, tally) (community, node) => do
      return (← assignment.set node community, ← tally.increment community))
    (assignment, tally.reset)

/-- Uses prepared assignments in turn, one for each trial, from the first one
again after the last one. -/
def prepared {α : Type} (assignments : Array Assignment) : Construction α where
  description := "Prepared"
  build _ _ trial assignment tally := Run.check do
    let chosen ← Buffer.read assignments ((trial - 1) % assignments.size)
    writePrepared chosen.toList assignment tally

end Construction

end KCut
