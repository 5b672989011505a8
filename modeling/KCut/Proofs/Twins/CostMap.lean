import KCut.Solver

/-!
# KCut.Proofs.Twins.CostMap

What becomes of the traces of a run when all its costs are changed by one function.

Nothing but costs is touched: empty cost cells stay empty, and assignments, counts
and the order of the entries stay as they are. A run of costs of one type can so be
compared with a run of costs of another type, entry by entry.
-/

namespace KCut

variable {α β : Type}

/-- A cost cell with its cost changed; an empty cell stays empty. -/
def Score.map (f : α → β) : Score α → Score β
  | .worst => .worst
  | .of cost => .of (f cost)

@[simp] theorem Score.map_worst (f : α → β) : Score.worst.map f = .worst := rfl

@[simp] theorem Score.map_of (f : α → β) (cost : α) : (Score.of cost).map f = .of (f cost) := rfl

@[simp] theorem Score.map_id (score : Score α) : score.map id = score := by
  cases score <;> rfl

def Candidate.mapCost (f : α → β) (c : Candidate α) : Candidate β :=
  ⟨c.assignment, c.tally, c.cost.map f⟩

/-- The candidates put the nodes into the same communities and count them alike; what
their cost cells hold does not matter. -/
structure Candidate.SamePlaces (c : Candidate α) (c' : Candidate β) : Prop where
  assignment_eq : c'.assignment = c.assignment
  tally_eq : c'.tally = c.tally

def Slot.mapCost (f : α → β) (slot : Slot α) : Slot β :=
  ⟨slot.assignment, slot.cost.map f⟩

def ScoredTrial.mapCost (f : α → β) (t : ScoredTrial α) : ScoredTrial β :=
  ⟨t.trial, t.cost.map f, t.assignment⟩

def Answer.mapCost (f : α → β) (a : Answer α) : Answer β :=
  ⟨a.assignment, a.cost.map f, a.statistics⟩

@[simp] theorem ScoredTrial.mapCost_id (t : ScoredTrial α) : t.mapCost id = t := by
  simp [mapCost]

@[simp] theorem Answer.mapCost_id (a : Answer α) : a.mapCost id = a := by
  simp [mapCost]

/-! ### Journals -/

def Note.mapCost (f : α → β) : Note α → Note β
  | .solveStart settings => .solveStart settings
  | .solveEndEmpty => .solveEndEmpty
  | .solveEnd cost trials bestImprovements => .solveEnd (cost.map f) trials bestImprovements
  | .newBest trial cost => .newBest trial (cost.map f)
  | .trialEnd trial cost bestCost improved =>
      .trialEnd trial (cost.map f) (bestCost.map f) improved
  | .constructionEnd reserved placed partitions => .constructionEnd reserved placed partitions
  | .localSearchRound round swaps => .localSearchRound round swaps
  | .vnsRound order cost improved => .vnsRound order (cost.map f) improved
  | .vnsEnd rounds improvements stuck cost => .vnsEnd rounds improvements stuck (cost.map f)
  | .task event => .task event

def Entry.mapCost (f : α → β) : Entry α → Entry β
  | .task event => .task event
  | .polled stop drawn => .polled stop drawn
  | .noted note => .noted (note.mapCost f)
  | .scored trial => .scored (trial.mapCost f)
  | .sent trial => .sent (trial.mapCost f)

theorem Entry.mapCost_id (entry : Entry α) : entry.mapCost id = entry := by
  cases entry with
  | noted note => cases note <;> simp [mapCost, Note.mapCost]
  | _ => simp [mapCost]

namespace Journal

def mapCosts (f : α → β) (j : Journal α) : Journal β :=
  j.map (Entry.mapCost f)

@[simp] theorem mapCosts_id (j : Journal α) : j.mapCosts id = j := by
  have hid : Entry.mapCost (α := α) id = id := funext Entry.mapCost_id
  rw [mapCosts, hid, Array.map_id]

theorem mapCosts_push (f : α → β) (j : Journal α) (entry : Entry α) :
    mapCosts f (j.push entry) = (j.mapCosts f).push (entry.mapCost f) := by
  simp [mapCosts]

theorem messages_append (j j' : Journal α) :
    Journal.messages (j ++ j') = j.messages ++ j'.messages := by
  simp [messages]

/-- The messages of a run with changed costs are its messages with changed costs. -/
theorem messages_mapCosts (f : α → β) (j : Journal α) :
    (j.mapCosts f).messages = j.messages.map (ScoredTrial.mapCost f) := by
  rw [messages, mapCosts, Array.toList_map, List.filterMap_map, messages, List.map_filterMap]
  congr 1
  funext entry
  cases entry <;> rfl

end Journal

end KCut
