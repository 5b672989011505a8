import KCut.LocalSearch.Converge

/-!
# KCut.NeighborhoodSearch

Variable neighborhood search: perturb the best candidate in a growing number of
nodes, improve the perturbed one by a local search, keep it if it is better.

Design points:

* Round order `q` perturbs up to `q` nodes. A better neighbor sets the order
  back to zero, any other raises it by one; the search ends at the maximum.
* The neighbor has buffers of its own. A better neighbor changes places with the
  best candidate, so the buffers of the former best serve the next neighbor.
* A perturbation either moves one node or changes nothing. If it finds no node
  to move, the round is finished and the search ends as stuck.
* Improvements are strict, so no assignment is kept twice; `roundBound` follows.
-/

namespace KCut

/-- A variable neighborhood search. -/
structure NeighborhoodSearch where
  /-- Whether heavier or lighter cuts are better. -/
  objective : Objective
  k : Nat
  /-- The order at which a search ends; zero for a plain local search. -/
  maxOrder : Nat
  /-- The number of nodes drawn for one perturbation. -/
  maxRetries : Nat
  /-- The size down to which nodes may leave each community. -/
  minSizes : Array Nat
deriving Repr

/-- What a neighborhood search did. -/
structure VnsOutcome where
  rounds : Nat
  improvements : Nat
  /-- Whether the search ended because no node could be perturbed. -/
  stuck : Bool
deriving Repr, DecidableEq, Inhabited

namespace NeighborhoodSearch

/-- The community that a node in `current` moves to when `shift` has been
drawn: that many communities further on, around the end. Community ids, and so
their sum, are 32-bit words. -/
def shifted (k current shift : Nat) : Except Fault Nat :=
  if current + shift < 0x1_0000_0000 then .ok ((current + shift) % k)
  else .error (.overflow (current + shift))

/-- Moves one random node to another random community, drawing at most the
given number of nodes. Gives `false`, and the candidate as it was, if none of
the nodes drawn may leave its community. -/
def attempt {α : Type} (vns : NeighborhoodSearch) :
    (retries : Nat) → Candidate α → Run α (Bool × Candidate α)
  | 0, c => return (false, c)
  | retries + 1, c => do
      let node ← Run.draw 0 c.assignment.size
      let current ← Run.check (c.assignment.get node)
      let size ← Run.check (c.tally.get current)
      let least ← Run.check (Buffer.read vns.minSizes current)
      if size ≤ least ∨ vns.k < 2 then
        attempt vns retries c
      else
        let shift ← Run.draw 1 vns.k
        let target ← Run.check (shifted vns.k current shift)
        let assignment ← Run.check (c.assignment.set node target)
        let tally ← Run.check (c.tally.move current target)
        return (true, { c with assignment, tally })

/-- One perturbation; without nodes there is nothing to draw. -/
def perturb {α : Type} (vns : NeighborhoodSearch) (c : Candidate α) :
    Run α (Bool × Candidate α) :=
  if c.assignment.isEmpty then return (false, c) else vns.attempt vns.maxRetries c

/-- Perturbs `count` times, or until a perturbation fails. -/
def perturbMany {α : Type} (vns : NeighborhoodSearch) :
    (count : Nat) → Candidate α → Run α (Bool × Candidate α)
  | 0, c => return (true, c)
  | count + 1, c => do
      let (moved, c) ← vns.perturb c
      if moved then perturbMany vns count c else return (false, c)

/-- The state of a neighborhood search between two rounds. -/
structure Progress (α : Type) where
  /-- The buffers of the local searches. -/
  workspace : Workspace α
  best : Candidate α
  /-- The buffers of the neighbor. -/
  neighbor : Candidate α
  /-- The order of the next round. -/
  order : Nat
  outcome : VnsOutcome

variable {α : Type} [Weight α]

/-- The neighbor that a round starts from: a copy of the best candidate, with
the cost cell of the former neighbor. -/
def copyBest (p : Progress α) : Except Fault (Candidate α) := do
  let assignment ← p.neighbor.assignment.copyFrom p.best.assignment
  let tally ← p.neighbor.tally.copyFrom p.best.tally
  return { p.neighbor with assignment, tally }

/-- The state after a neighbor has been searched: it changes places with the
best candidate if it is better. -/
def settle (vns : NeighborhoodSearch) (p : Progress α) : Bool × Progress α :=
  if vns.objective.prefers p.neighbor.cost p.best.cost then
    (true, { p with
      best := p.neighbor
      neighbor := { p.best with cost := p.neighbor.cost }
      order := 0
      outcome := { p.outcome with
        rounds := p.outcome.rounds + 1
        improvements := p.outcome.improvements + 1 } })
  else
    (false, { p with
      order := p.order + 1
      outcome := { p.outcome with rounds := p.outcome.rounds + 1 } })

/-- One round; gives whether all its perturbations moved a node. -/
def round (vns : NeighborhoodSearch) (ls : LocalSearch α) (p : Progress α) :
    Run α (Bool × Progress α) := do
  Run.begin (.vnsRound p.order)
  let start ← Run.check (copyBest p)
  let (perturbed, start) ← vns.perturbMany p.order start
  let (_, workspace, neighbor) ← ls.compute p.workspace start
  let (improved, next) := vns.settle { p with workspace, neighbor }
  Run.count (·.recordVnsRound improved)
  Run.note (.vnsRound p.order neighbor.cost improved)
  Run.finish (.vnsRound p.order)
  return (perturbed, next)

/-- Rounds until the order reaches its maximum, no node can be perturbed or the
run has to stop, at most `bound`. -/
def search (vns : NeighborhoodSearch) (ls : LocalSearch α) :
    (bound : Nat) → Progress α → Run α (Progress α)
  | 0, p => if p.order < vns.maxOrder then Run.check (.error .boundExceeded) else return p
  | bound + 1, p => do
      if p.order < vns.maxOrder then
        if ← Run.poll then return p
        let (perturbed, p) ← vns.round ls p
        if perturbed then
          search vns ls bound p
        else
          Run.count (·.recordVnsStuck)
          return { p with outcome := { p.outcome with stuck := true } }
      else return p

/-- A number of rounds within which every search ends. -/
def roundBound (vns : NeighborhoodSearch) (ls : LocalSearch α) : Nat :=
  vns.maxOrder * (Nat.pow ls.k ls.graph.nodeCount + 2)

/-- Improves a candidate in growing neighborhoods; by a plain local search if
the maximal order is zero. -/
def compute (vns : NeighborhoodSearch) (ls : LocalSearch α) (workspace : Workspace α)
    (neighbor best : Candidate α) :
    Run α (VnsOutcome × Workspace α × Candidate α × Candidate α) := do
  if vns.maxOrder = 0 then
    let (_, workspace, best) ← ls.compute workspace best
    return (⟨0, 0, false⟩, workspace, neighbor, best)
  Run.begin .variableNeighborhoodSearch
  let p ← vns.search ls (vns.roundBound ls) ⟨workspace, best, neighbor, 0, ⟨0, 0, false⟩⟩
  Run.finish .variableNeighborhoodSearch
  Run.note (.vnsEnd p.outcome.rounds p.outcome.improvements p.outcome.stuck p.best.cost)
  return (p.outcome, p.workspace, p.neighbor, p.best)

end NeighborhoodSearch

end KCut
