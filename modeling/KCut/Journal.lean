import KCut.Candidate
import KCut.Progress

/-!
# KCut.Journal

The journal of a run: everything that can be observed of it, in order.

Design points:

* There is one sequence of entries. What a listener hears, what the log shows,
  what a caller receives while the run goes on and how the polls were answered
  are all read off that sequence, so they cannot disagree about the order.
* A log entry is a `Note`, one constructor for each kind; its level and its
  named fields follow from it.
-/

namespace KCut

/-- The importance of a log entry. -/
inductive Level
  | error
  | warn
  | info
  | debug
  | trace
deriving Repr, DecidableEq, Inhabited

/-- The word for a level. -/
def Level.name : Level → String
  | error => "ERROR"
  | warn => "WARN"
  | info => "INFO"
  | debug => "DEBUG"
  | trace => "TRACE"

/-- The value of a field of a log entry. -/
inductive Field (α : Type)
  | count (n : Nat)
  | truth (b : Bool)
  | text (s : String)
  | cost (c : Score α)
  /-- The time that passed, which no run of this library measures. -/
  | elapsed
deriving Repr

/-- The sizes and settings of a run, as its first log entry shows them. -/
structure RunSettings where
  nodeCount : Nat
  relationshipCount : Nat
  k : Nat
  iterations : Nat
  vnsMaxNeighborhoodOrder : Nat
  objective : Objective
  concurrency : Nat
  seed : UInt64
deriving Repr, DecidableEq

/-- A log entry. -/
inductive Note (α : Type)
  | solveStart (settings : RunSettings)
  /-- A run on a graph without nodes ends. -/
  | solveEndEmpty
  | solveEnd (cost : Score α) (trials bestImprovements : Nat)
  /-- A trial's candidate is the best one so far. -/
  | newBest (trial : Nat) (cost : Score α)
  | trialEnd (trial : Nat) (cost bestCost : Score α) (improved : Bool)
  /-- A candidate has been placed at random. -/
  | constructionEnd (reserved placed partitions : Nat)
  | localSearchRound (round swaps : Nat)
  | vnsRound (order : Nat) (cost : Score α) (improved : Bool)
  | vnsEnd (rounds improvements : Nat) (stuck : Bool) (cost : Score α)
  /-- A logging listener hears of a task. -/
  | task (event : TaskEvent)
deriving Repr

namespace Note

variable {α : Type}

/-- The importance of a log entry. -/
def level : Note α → Level
  | solveStart _ | solveEndEmpty | solveEnd .. | newBest .. => .info
  | trialEnd .. | vnsEnd .. => .debug
  | constructionEnd .. | localSearchRound .. | vnsRound .. | task _ => .trace

/-- The named fields of a log entry. -/
def fields [Zero α] : Note α → List (String × Field α)
  | solveStart s => [
      ("event", .text "solve_start"),
      ("node_count", .count s.nodeCount),
      ("relationship_count", .count s.relationshipCount),
      ("k", .count s.k),
      ("iterations", .count s.iterations),
      ("vns_max_neighborhood_order", .count s.vnsMaxNeighborhoodOrder),
      ("objective", .text s.objective.name),
      ("concurrency", .count s.concurrency),
      ("seed", .count s.seed.toNat)]
  | solveEndEmpty => [
      ("event", .text "solve_end"),
      ("cost", .cost (.of 0)),
      ("trials", .count 0)]
  | solveEnd cost trials bestImprovements => [
      ("event", .text "solve_end"),
      ("cost", .cost cost),
      ("trials", .count trials),
      ("best_improvements", .count bestImprovements),
      ("duration_ms", .elapsed)]
  | newBest trial cost => [
      ("event", .text "new_best"),
      ("trial", .count trial),
      ("cost", .cost cost)]
  | trialEnd trial cost bestCost improved => [
      ("event", .text "trial_end"),
      ("trial", .count trial),
      ("cost", .cost cost),
      ("best_cost", .cost bestCost),
      ("improved", .truth improved)]
  | constructionEnd reserved placed partitions => [
      ("event", .text "construction_end"),
      ("reserved", .count reserved),
      ("placed", .count placed),
      ("partitions", .count partitions)]
  | localSearchRound round swaps => [
      ("event", .text "local_search_round"),
      ("round", .count round),
      ("swaps", .count swaps)]
  | vnsRound order cost improved => [
      ("event", .text "vns_round"),
      ("order", .count order),
      ("cost", .cost cost),
      ("improved", .truth improved)]
  | vnsEnd rounds improvements stuck cost => [
      ("event", .text "vns_end"),
      ("rounds", .count rounds),
      ("improvements", .count improvements),
      ("stuck", .truth stuck),
      ("cost", .cost cost)]
  | task (.began t) => [("event", .text "task_start"), ("task", .text t.display)]
  | task (.ended t) => [("event", .text "task_end"), ("task", .text t.display)]

end Note

/-- The candidate of a trial at the moment when it competes for best. -/
structure ScoredTrial (α : Type) where
  /-- The number of the trial, counted from one. -/
  trial : Nat
  cost : Score α
  assignment : Assignment
deriving Repr

/-- An entry of a journal. -/
inductive Entry (α : Type)
  | task (event : TaskEvent)
  /-- The termination condition is asked; `stop` is its answer and `drawn` the
  number of random words drawn until then. -/
  | polled (stop : Bool) (drawn : Nat)
  | noted (note : Note α)
  /-- A trial's candidate competes for best. -/
  | scored (trial : ScoredTrial α)
  /-- A candidate that became the best one is sent to the caller. -/
  | sent (trial : ScoredTrial α)
deriving Repr

/-- Entries in the order in which they were made. -/
abbrev Journal (α : Type) := Array (Entry α)

namespace Journal

variable {α : Type}

/-- The task events that a listener hears. -/
def events (j : Journal α) : List TaskEvent :=
  j.toList.filterMap fun
    | .task event => some event
    | _ => none

/-- The log. With `tasks`, a logging listener writes the task events into it. -/
def log (j : Journal α) (tasks : Bool) : List (Note α) :=
  j.toList.filterMap fun
    | .noted note => some note
    | .task event => if tasks then some (.task event) else none
    | _ => none

/-- The candidates that were sent to the caller. -/
def messages (j : Journal α) : List (ScoredTrial α) :=
  j.toList.filterMap fun
    | .sent trial => some trial
    | _ => none

/-- The candidates that competed for best. -/
def scoredTrials (j : Journal α) : List (ScoredTrial α) :=
  j.toList.filterMap fun
    | .scored trial => some trial
    | _ => none

/-- The answers to the polls, `true` for a stop. -/
def answers (j : Journal α) : List Bool :=
  j.toList.filterMap fun
    | .polled stop _ => some stop
    | _ => none

/-- What a counting listener holds in the end. -/
def counts (j : Journal α) : Counts :=
  Counts.ofEvents j.events

@[simp] theorem events_push_task (j : Journal α) (event : TaskEvent) :
    Journal.events (j.push (.task event)) = j.events ++ [event] := by
  simp [events]

@[simp] theorem messages_push_sent (j : Journal α) (trial : ScoredTrial α) :
    Journal.messages (j.push (.sent trial)) = j.messages ++ [trial] := by
  simp [messages]

@[simp] theorem scoredTrials_push_scored (j : Journal α) (trial : ScoredTrial α) :
    Journal.scoredTrials (j.push (.scored trial)) = j.scoredTrials ++ [trial] := by
  simp [scoredTrials]

@[simp] theorem answers_push_polled (j : Journal α) (stop : Bool) (drawn : Nat) :
    Journal.answers (j.push (.polled stop drawn)) = j.answers ++ [stop] := by
  simp [answers]

end Journal

end KCut
