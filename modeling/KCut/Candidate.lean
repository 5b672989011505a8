import KCut.Objective
import KCut.Tally
import KCut.Graph.Cut

/-!
# KCut.Candidate

Candidate solutions: an assignment of communities to nodes, the tally of its
communities and the cell for its cost.

The three parts are buffers of one candidate. They agree when an operation is
done with them, not at every moment in between.
-/

namespace KCut

namespace Assignment

/-- All of `nodeCount` nodes in community 0. -/
def zero (nodeCount : Nat) : Assignment :=
  Array.replicate nodeCount 0

def get (a : Assignment) (node : Nat) : Except Fault Nat :=
  Buffer.read a node

def set (a : Assignment) (node community : Nat) : Except Fault Assignment :=
  Buffer.write a node community

/-- Overwrites an assignment with one of the same nodes. -/
def copyFrom (a source : Assignment) : Except Fault Assignment :=
  if source.size = a.size then .ok source else .error (.sizeMismatch a.size source.size)

theorem copyFrom_of_size_eq {a source : Assignment} (h : source.size = a.size) :
    a.copyFrom source = .ok source := by
  simp [copyFrom, h]

end Assignment

structure Candidate (α : Type) where
  assignment : Assignment
  tally : Tally
  /-- The weight of the cut, once it has been scored. -/
  cost : Score α
deriving Repr

namespace Candidate

/-- The unscored candidate that puts all nodes into community 0 and has counted
none of them yet. -/
def blank {α : Type} (nodeCount k : Nat) : Candidate α :=
  ⟨.zero nodeCount, .zero k, .worst⟩

/-- Puts a node into another community and keeps the tally: the old community
is left before the new one is entered. -/
def recolor {α : Type} (c : Candidate α) (node community : Nat) :
    Except Fault (Candidate α) := do
  let old ← c.assignment.get node
  let tally ← c.tally.move old community
  return { c with assignment := ← c.assignment.set node community, tally }

end Candidate

end KCut
