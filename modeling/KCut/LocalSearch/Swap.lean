import KCut.LocalSearch.Basic

/-!
# KCut.LocalSearch.Swap

Second phase of a round: nodes move to the community that improves the cut most.

Design points:

* The gain of a move is the affinity to the old community minus the one to the
  new community. Gains come from the table of the first phase and are stale as
  soon as a neighbor has moved.
* Hence a moving node marks its neighbors. A marked node stays where it is for
  the rest of the round, so every move brings exactly the gain it was made for.
* A node that finds a moving neighbor when it marks backs off. Partitions that
  run one after another never get there; the rule keeps concurrent ones safe.
* A node leaves its community only while that has more nodes than its minimum.
-/

namespace KCut.LocalSearch

variable {α : Type} [Weight α]

/-- The community that a node would move to, and the gain of that move. -/
structure Choice (α : Type) where
  /-- The community; that of the node itself if no move is better than none. -/
  community : Nat
  gain : α
deriving Repr

/-- Compares the best choice so far with a move to one more community. -/
def Choice.consider (objective : Objective) (current : Nat) (here : α) (best : Choice α)
    (entry : α × Nat) : Choice α :=
  if entry.2 = current then best
  else
    let gain := here - entry.1
    if objective.better gain best.gain then ⟨entry.2, gain⟩ else best

/-- The best move of a node in community `current`, to which its affinity is
`here`, by its row of affinities. Of equal gains the first community wins. -/
def bestChoice (objective : Objective) (current : Nat) (here : α) (row : List α) : Choice α :=
  row.zipIdx.foldl (Choice.consider objective current here) ⟨current, 0⟩

/-- The state of the second phase. -/
structure SwapState where
  assignment : Assignment
  tally : Tally
  marks : Array Mark
  /-- Whether some node moved, or backed off from moving. -/
  changed : Bool
  moved : Nat
deriving Repr

/-- The row of node `v` in a table of affinities. -/
def tableRow (ls : LocalSearch α) (table : Array α) (v : Nat) : Except Fault (Array α) :=
  if (v + 1) * ls.k ≤ table.size then
    .ok (table.extract (v * ls.k) ((v + 1) * ls.k))
  else
    .error (.outside ((v + 1) * ls.k) table.size)

/-- Marks the neighbors of a moving node `v`, one after another. Gives `false`
as soon as one of them is moving itself. -/
def lockNeighbors (v : Nat) : List (Arc α) → Array Mark → Except Fault (Bool × Array Mark)
  | [], marks => .ok (true, marks)
  | a :: rest, marks =>
      if a.target = v then lockNeighbors v rest marks
      else
        match Buffer.read marks a.target with
        | .error fault => .error fault
        | .ok .swapping => .ok (false, marks)
        | .ok .shouldNotSwap => lockNeighbors v rest marks
        | .ok .untouched =>
            match Buffer.write marks a.target .shouldNotSwap with
            | .error fault => .error fault
            | .ok marks => lockNeighbors v rest marks

/-- Moves node `v`, which nothing holds back, to another community; or backs
off if a neighbor is moving. -/
def claim (ls : LocalSearch α) (v current target : Nat) (s : SwapState) :
    Except Fault SwapState := do
  let marks ← Buffer.write s.marks v .swapping
  let (free, marks) ← lockNeighbors v (← ls.incident v) marks
  if free then
    let tally ← s.tally.move current target
    let assignment ← s.assignment.set v target
    return { assignment, tally, marks, changed := true, moved := s.moved + 1 }
  else
    let marks ← Buffer.write marks v .shouldNotSwap
    return { s with marks, changed := true }

/-- Visits one node in the second phase. -/
def visit (ls : LocalSearch α) (table : Array α) (s : SwapState) (v : Nat) :
    Except Fault SwapState := do
  let current ← s.assignment.get v
  let row ← ls.tableRow table v
  let here ← Buffer.read row current
  let best := bestChoice ls.objective current here row.toList
  if best.community = current then return s
  let size ← s.tally.get current
  let least ← Buffer.read ls.minSizes current
  if size ≤ least then return s
  if (← Buffer.read s.marks v) ≠ .untouched then return s
  ls.claim v current best.community s

/-- The marks of a round that starts: no node has been touched. -/
def resetMarks (ls : LocalSearch α) (marks : Array Mark) : Except Fault (Array Mark) :=
  ls.partitions.foldlM
    (fun marks p => p.nodes.foldlM (fun marks v => Buffer.write marks v .untouched) marks)
    marks

/-- Visits the nodes of the given partitions, in order. -/
def swapIn (ls : LocalSearch α) (table : Array α) (partitions : List Partition)
    (s : SwapState) : Except Fault SwapState :=
  partitions.foldlM (fun s p => p.nodes.foldlM (ls.visit table) s) s

end KCut.LocalSearch
