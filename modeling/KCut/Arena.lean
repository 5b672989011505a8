import KCut.Candidate

/-!
# KCut.Arena

Two slots for candidates: the one that a trial works on and the best one so far.

The slots change places when the current candidate is better, so the best one is
kept without a copy and the slot of the former best serves the next trial. A
trial only writes to the current slot.
-/

namespace KCut

structure Slot (α : Type) where
  assignment : Assignment
  /-- The cost of the assignment, once it has been scored. -/
  cost : Score α
deriving Repr

/-- The current candidate and the best one. -/
structure Arena (α : Type) where
  current : Slot α
  best : Slot α
deriving Repr

namespace Arena

variable {α : Type}

/-- Two unscored candidates with all nodes in community 0. -/
def new (nodeCount : Nat) : Arena α :=
  ⟨⟨.zero nodeCount, .worst⟩, ⟨.zero nodeCount, .worst⟩⟩

/-- Lets the slots change places if the current candidate is strictly better
than the best one; gives whether they did. -/
def promote [Weight α] (objective : Objective) (a : Arena α) : Bool × Arena α :=
  if objective.prefers a.current.cost a.best.cost then (true, ⟨a.best, a.current⟩)
  else (false, a)

theorem promote_of_better [Weight α] {objective : Objective} {a : Arena α}
    (h : objective.prefers a.current.cost a.best.cost = true) :
    a.promote objective = (true, ⟨a.best, a.current⟩) := by
  simp [promote, h]

theorem promote_of_not_better [Weight α] {objective : Objective} {a : Arena α}
    (h : objective.prefers a.current.cost a.best.cost = false) :
    a.promote objective = (false, a) := by
  simp [promote, h]

end Arena

end KCut
