import KCut.Arena
import KCut.Config.Basic
import KCut.Construction
import KCut.NeighborhoodSearch

/-!
# KCut.Solver

The solver: independent trials, each a construction followed by a search, of
which the best candidate is kept.

Design points:

* The run is polled before each trial and once more between construction and
  search. A run that is stopped after a construction still scores the candidate,
  so nothing that has been built is lost.
* A candidate is kept only if it is strictly better than the best one so far,
  so of equal candidates the first one found is the answer.
* All trials share their buffers: the slots of the arena, the tally, the
  workspace of the local searches and the neighbor of the neighborhood search.
* A time limit of the configuration is asked before the caller's condition.
* A configuration that is refused leaves the caller's journal and condition as
  they stood: the refusal hands them back.
-/

namespace KCut

structure Solver (α : Type) where
  graph : Graph α
  config : Config
  /-- How trials build their first candidates. -/
  construction : Construction α
  /-- The caller's condition for a stop, if there is one. -/
  termination : Option Termination
  listeners : Nat

/-- The answer of a solver. -/
structure Answer (α : Type) where
  assignment : Assignment
  cost : Score α
  statistics : Statistics
deriving Repr

/-- The answer of a solver and the traces that the run left. -/
structure Report (α : Type) where
  answer : Answer α
  /-- Everything that happened, in order. -/
  journal : Journal α
  /-- The caller's condition for a stop, after the last poll. -/
  termination : Termination

/-- The community of a node in an answer. -/
def Answer.communityOf {α : Type} (a : Answer α) (node : Nat) : Except Fault Nat :=
  a.assignment.get node

namespace Solver

variable {α : Type} [Weight α]

/-- A solver with random placement and nobody listening. -/
def new (g : Graph α) (config : Config) : Solver α :=
  ⟨g, config, .random config.minBatchSize, none, 0⟩

/-- The buffers that trials share. -/
structure Buffers (α : Type) where
  arena : Arena α
  /-- The number of nodes in each community of the current candidate. -/
  tally : Tally
  /-- The buffers of the local searches. -/
  workspace : Workspace α
  /-- The neighbor of the neighborhood search. -/
  neighbor : Candidate α

/-- The settings of a run, as its first log entry shows them. -/
def settings (s : Solver α) (seed : UInt64) : RunSettings where
  nodeCount := s.graph.nodeCount
  relationshipCount := s.graph.relationshipCount
  k := s.config.k
  iterations := s.config.iterations
  vnsMaxNeighborhoodOrder := s.config.vnsMaxNeighborhoodOrder
  objective := s.config.objective
  concurrency := s.config.concurrency
  seed := seed

def localSearch (s : Solver α) : LocalSearch α :=
  .new s.graph s.config.objective s.config.k s.config.resolvedMinSizes.toArray
    s.config.concurrency s.config.minBatchSize

def neighborhoodSearch (s : Solver α) : NeighborhoodSearch where
  objective := s.config.objective
  k := s.config.k
  maxOrder := s.config.vnsMaxNeighborhoodOrder
  maxRetries := s.config.maxPerturbationRetries
  minSizes := s.config.resolvedMinSizes.toArray

/-- The buffers of a run before its first trial. -/
def buffers (s : Solver α) : Buffers α where
  arena := .new s.graph.nodeCount
  tally := .zero s.config.k
  workspace := s.localSearch.workspace
  neighbor := .blank s.graph.nodeCount s.config.k

/-- Lets the candidate of a trial compete for best, and reports it if it wins. -/
def compete (s : Solver α) (trial : Nat) (b : Buffers α) : Run α (Bool × Buffers α) := do
  let candidate : ScoredTrial α := ⟨trial, b.arena.current.cost, b.arena.current.assignment⟩
  Run.enter (.scored candidate)
  let (improved, arena) := b.arena.promote s.config.objective
  if improved then
    Run.count (·.recordBest)
    Run.note (.newBest trial candidate.cost)
    Run.enter (.sent candidate)
  return (improved, { b with arena })

/-- Builds the first candidate of a trial in the current slot. -/
def construct (s : Solver α) (trial : Nat) (b : Buffers α) : Run α (Buffers α) := do
  let (assignment, tally) ←
    s.construction.build s.graph s.config.resolvedMinSizes.toArray trial
      b.arena.current.assignment b.tally
  return { b with arena := { b.arena with current := ⟨assignment, .worst⟩ }, tally }

/-- Scores the candidate in the current slot without a search. -/
def score (s : Solver α) (b : Buffers α) : Run α (Buffers α) := do
  let cost ← s.localSearch.evaluate b.arena.current.assignment
  return { b with arena := { b.arena with current := { b.arena.current with cost } } }

/-- Improves the candidate in the current slot. -/
def improve (s : Solver α) (b : Buffers α) : Run α (Buffers α) := do
  let current : Candidate α := ⟨b.arena.current.assignment, b.tally, b.arena.current.cost⟩
  let (_, workspace, neighbor, best) ←
    s.neighborhoodSearch.compute s.localSearch b.workspace b.neighbor current
  return {
    arena := { b.arena with current := ⟨best.assignment, best.cost⟩ }
    tally := best.tally
    workspace
    neighbor }

/-- One trial; gives whether the run goes on after it. -/
def trial (s : Solver α) (index : Nat) (b : Buffers α) : Run α (Bool × Buffers α) := do
  Run.begin (.trial index)
  let b ← s.construct index b
  if ← Run.poll then
    let b ← s.score b
    let (_, b) ← s.compete index b
    Run.finish (.trial index)
    return (false, b)
  else
    let b ← s.improve b
    let cost := b.arena.current.cost
    let (improved, b) ← s.compete index b
    Run.count (·.recordTrial)
    Run.note (.trialEnd index cost b.arena.best.cost improved)
    Run.finish (.trial index)
    return (true, b)

/-- The trials from number `index` on, `remaining` of them unless the run has to
stop. -/
def trials (s : Solver α) : (remaining index : Nat) → Buffers α → Run α (Buffers α)
  | 0, _, b => return b
  | remaining + 1, index, b => do
      if ← Run.poll then return b
      let (goOn, b) ← s.trial index b
      if goOn then trials s remaining (index + 1) b else return b

def grasp (s : Solver α) : Run α (Buffers α) := do
  Run.begin .grasp
  let b ← s.trials s.config.iterations 1 s.buffers
  Run.finish .grasp
  return b

/-- The condition that a run polls. -/
def condition (s : Solver α) : Termination :=
  (s.termination.getD .never).withLimit (s.config.timeLimit.map (· * 1000))

/-- The caller's part of the condition that a run has polled. -/
def callersPart (s : Solver α) (polled : Termination) : Termination :=
  match s.config.timeLimit, polled with
  | some _, .either _ callers => callers
  | _, polled => polled

/-- The scope of a run at its start. -/
def scope (s : Solver α) (seed : UInt64) : Scope α :=
  Scope.start s.config.concurrency seed s.condition

/-- Runs the trials of a graph with nodes in a given scope. -/
def runIn (s : Solver α) (scope : Scope α) : Except Fault (Report α) := do
  let (b, scope) ← s.grasp.run scope
  let best := b.arena.best
  let statistics := scope.statistics
  let last : Note α := .solveEnd best.cost statistics.trialsCompleted statistics.bestImprovements
  return {
    answer := ⟨best.assignment, best.cost, statistics⟩
    journal := scope.journal.push (.noted last)
    termination := s.callersPart scope.termination }

/-- Runs the solver. The seed is used where the configuration names none. -/
def compute (s : Solver α) (freshSeed : UInt64) : Except Fault (Report α) :=
  let seed := (s.config.randomSeed.map UInt64.ofNat).getD freshSeed
  let first : Entry α := .noted (.solveStart (s.settings seed))
  if s.graph.nodeCount = 0 then
    .ok {
      answer := ⟨#[], .of 0, .zero⟩
      journal := #[first, .noted .solveEndEmpty]
      termination := s.termination.getD .never }
  else
    s.runIn { s.scope seed with journal := #[first] }

def describe (s : Solver α) : String :=
  Text.record "ApproxMaxKCut" [
    ("config", s.config.describe),
    ("construction", s.construction.description),
    ("termination", Text.optional Termination.describe s.termination),
    ("progress", describeListeners s.listeners)]

end Solver

/-- Why solving gave no report. -/
inductive SolveError (α : Type)
  /-- The configuration is refused; `journal` and `termination` are what the
  caller finds then. -/
  | refused (failure : Failure) (journal : Journal α) (termination : Termination)
  /-- The run has no result. -/
  | fault (fault : Fault)

/-- Checks a configuration against a graph and runs the solver. The caller may
stop the run by a flag, and finds in the journal of the report every candidate
that was the best one for a while. Without nodes no time limit is looked at. -/
def solve {α : Type} [Weight α] (g : Graph α) (config : Config) (terminate : Option Bool)
    (freshSeed : UInt64) : Except (SolveError α) (Report α) := do
  let callers : Option Termination := terminate.map .flag
  match ← (config.problemFor? g.nodeCount).mapError .fault with
  | some problem =>
      throw (.refused problem.toError.toFailure #[] (callers.getD .never))
  | none =>
      if g.nodeCount ≠ 0 then
        let _ ← config.timeLimit?.mapError .fault
      let solver := { Solver.new g config with termination := callers }
      (solver.compute freshSeed).mapError .fault

end KCut
