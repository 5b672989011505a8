import KCut.LocalSearch.Affinity
import KCut.LocalSearch.Swap
import KCut.LocalSearch.Cost
import KCut.Run

/-!
# KCut.LocalSearch.Converge

Local search: rounds of affinities and moves until a round changes nothing or
the run has to stop, then the cost of what was reached.

Design points:

* The run is polled before each round, but not after a round without change.
* Each round that moves a node makes the cut strictly better, so no assignment
  comes back and there are fewer such rounds than assignments. `roundBound` is
  above that number; a search that reaches it is a fault.
* The cost is computed in the end even if no round was run.
* A `Schedule` says in which order each round visits the blocks of nodes. Runs
  take them in their own order; laws may speak of every order.
-/

namespace KCut

/-- What a local search did. -/
structure LocalSearchOutcome where
  rounds : Nat
  swaps : Nat
  /-- Whether the last round changed nothing. -/
  converged : Bool
deriving Repr, DecidableEq

namespace LocalSearch

variable {α : Type} [Weight α]

/-- The state of a local search between two rounds. -/
structure Progress (α : Type) where
  workspace : Workspace α
  assignment : Assignment
  tally : Tally
  /-- Whether the last round changed something; true before the first one. -/
  changed : Bool
  rounds : Nat
  swaps : Nat

/-- For each round of a search, counted from zero, the order in which it visits
the blocks of nodes. The summation of the cost comes as one more round. -/
abbrev Schedule := Nat → List Partition

/-- The schedule of a run: the blocks in their own order. -/
def inOrder (ls : LocalSearch α) : Schedule :=
  fun _ => ls.partitions

/-- The state after one round that visits the blocks in the given order. -/
def round (ls : LocalSearch α) (order : List Partition) (p : Progress α) :
    Run α (Progress α) := do
  Run.begin .computeAffinities
  let table ← Run.check (ls.affinities p.assignment p.workspace.affinities)
  Run.finish .computeAffinities
  Run.begin .swapForLocalImprovements
  let marks ← Run.check (ls.resetMarks p.workspace.marks)
  let start : SwapState := ⟨p.assignment, p.tally, marks, false, 0⟩
  let s ← Run.check (ls.swapIn table order start)
  Run.finish .swapForLocalImprovements
  Run.note (.localSearchRound (p.rounds + 1) s.moved)
  return {
    workspace := ⟨table, s.marks⟩
    assignment := s.assignment
    tally := s.tally
    changed := s.changed
    rounds := p.rounds + 1
    swaps := p.swaps + s.moved }

/-- Rounds until one changes nothing or the run has to stop, at most `bound`. -/
def converge (ls : LocalSearch α) (schedule : Schedule) :
    (bound : Nat) → Progress α → Run α (Progress α)
  | 0, p => if p.changed then Run.check (.error .boundExceeded) else return p
  | bound + 1, p => do
      if p.changed then
        if ← Run.poll then return p
        let p ← ls.round (schedule p.rounds) p
        converge ls schedule bound p
      else return p

/-- A number of rounds within which every search with exact weights converges.
With rounded ones a search may also go round in circles until a poll stops it;
for that there are as many rounds again as a 64-bit word can count. -/
def roundBound (ls : LocalSearch α) : Nat :=
  Nat.pow ls.k ls.graph.nodeCount + 0x1_0000_0000_0000_0000

/-- Scores an assignment, summing over blocks in the given order, and changes
nothing else. -/
def evaluateIn (ls : LocalSearch α) (order : List Partition) (assignment : Assignment) :
    Run α (Score α) := do
  Run.begin .computeCost
  let cost ← Run.check (ls.costIn order assignment)
  Run.finish .computeCost
  return .of cost

/-- Scores an assignment and changes nothing else. -/
def evaluate (ls : LocalSearch α) (assignment : Assignment) : Run α (Score α) :=
  ls.evaluateIn ls.partitions assignment

/-- Improves a candidate by moving single nodes on a schedule, and scores it. -/
def computeOn (ls : LocalSearch α) (schedule : Schedule) (workspace : Workspace α)
    (c : Candidate α) : Run α (LocalSearchOutcome × Workspace α × Candidate α) := do
  Run.begin .localSearch
  Run.begin .convergenceLoop
  let p ← ls.converge schedule ls.roundBound ⟨workspace, c.assignment, c.tally, true, 0, 0⟩
  Run.finish .convergenceLoop
  let cost ← ls.evaluateIn (schedule p.rounds) p.assignment
  Run.finish .localSearch
  Run.count (·.recordLocalSearch p.rounds p.swaps)
  return (⟨p.rounds, p.swaps, !p.changed⟩, p.workspace, ⟨p.assignment, p.tally, cost⟩)

/-- Improves a candidate by moving single nodes, and scores it. -/
def compute (ls : LocalSearch α) (workspace : Workspace α) (c : Candidate α) :
    Run α (LocalSearchOutcome × Workspace α × Candidate α) :=
  ls.computeOn ls.inOrder workspace c

end LocalSearch

end KCut
