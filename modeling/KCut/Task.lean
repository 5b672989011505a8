import KCut.Text.Record

/-!
# KCut.Task

The tasks that a run reports to its listeners.
-/

namespace KCut

/-- A part of a run that is reported when it begins and when it ends. -/
inductive Task
  | grasp
  /-- The trial with the given number, counted from one. -/
  | trial (index : Nat)
  | construction
  /-- Improving a candidate in growing neighborhoods. -/
  | variableNeighborhoodSearch
  /-- A round of it, with the number of perturbations made. -/
  | vnsRound (order : Nat)
  /-- Improving a candidate by moving single nodes. -/
  | localSearch
  /-- The rounds of a local search. -/
  | convergenceLoop
  /-- First phase of a round: the affinity of each node to each community. -/
  | computeAffinities
  /-- Second phase of a round: moving nodes. -/
  | swapForLocalImprovements
  /-- Summing the weight of the cut. -/
  | computeCost
deriving Repr, DecidableEq, Inhabited

/-- A task that begins or ends. -/
inductive TaskEvent
  | began (task : Task)
  | ended (task : Task)
deriving Repr, DecidableEq, Inhabited

namespace Task

def display : Task → String
  | grasp => "Grasp"
  | trial index => s!"Trial {index}"
  | construction => "Construction"
  | variableNeighborhoodSearch => "VariableNeighborhoodSearch"
  | vnsRound order => s!"VnsRound (order {order})"
  | localSearch => "LocalSearch"
  | convergenceLoop => "ConvergenceLoop"
  | computeAffinities => "ComputeAffinities"
  | swapForLocalImprovements => "SwapForLocalImprovements"
  | computeCost => "ComputeCost"

/-- The tasks that have a name and nothing else. -/
def plain : List Task :=
  [grasp, construction, variableNeighborhoodSearch, localSearch, convergenceLoop,
    computeAffinities, swapForLocalImprovements, computeCost]

/-- The task without a number that a name stands for. -/
def ofName? (name : String) : Option Task :=
  plain.find? fun task => task.display == name

def describe : Task → String
  | trial index => Text.record "Trial" [("index", toString index)]
  | vnsRound order => Text.record "VnsRound" [("order", toString order)]
  | task => task.display

end Task

/-- An event as a listener writes it down: `+` for a task that begins and `-`
for one that ends. -/
def TaskEvent.display : TaskEvent → String
  | began task => "+" ++ task.display
  | ended task => "-" ++ task.display

end KCut
