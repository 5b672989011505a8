import KCut.Objective
import KCut.Failure
import KCut.Fault
import KCut.Text.Record

/-!
# KCut.Config.Basic

The configuration of a solver and the conditions it has to meet.

Design points:

* A configuration is checked in two steps: on its own, and against the number
  of nodes of a graph. Of several problems the first one in the order of
  `Problem` is reported.
* No minimum sizes at all stand for a minimum of zero for each community.
* Minimum sizes and time limits are words, and so are their sums. A sum that is
  none has no result; `TimeBudget.limit` is what is left of it in a word.
-/

namespace KCut

structure TimeBudget where
  seconds : Option Nat
  /-- A number of minutes, which counts on top of the seconds. -/
  minutes : Option Nat
deriving Repr, DecidableEq, Inhabited

namespace TimeBudget

/-- The seconds of a budget, its minutes included. -/
def total (b : TimeBudget) : Nat :=
  b.seconds.getD 0 + b.minutes.getD 0 * 60

/-- A number of seconds as a limit; none if it is zero. -/
def asLimit (seconds : Nat) : Option Nat :=
  if 0 < seconds then some seconds else none

/-- The limit in seconds; a fault if their number is no word. -/
def limit? (b : TimeBudget) : Except Fault (Option Nat) := do
  let minutes ← Checked.mul (b.minutes.getD 0) 60
  return asLimit (← Checked.add (b.seconds.getD 0) minutes)

/-- The limit in seconds, whose number wraps around. -/
def limit (b : TimeBudget) : Option Nat :=
  asLimit (b.total % Checked.bound)

end TimeBudget

structure Config where
  k : Nat
  iterations : Nat
  /-- The order at which a neighborhood search ends; zero for none. -/
  vnsMaxNeighborhoodOrder : Nat
  /-- The least size of each community; empty for no minimums. -/
  minCommunitySizes : List Nat
  /-- Whether lighter cuts are better. -/
  minimize : Bool
  concurrency : Nat
  /-- The seed of the random stream; none for a fresh one. -/
  randomSeed : Option Nat
  /-- The least amount of work in a partition. -/
  minBatchSize : Nat
  /-- The number of nodes drawn for one perturbation. -/
  maxPerturbationRetries : Nat
  /-- How long a run may take; none for any time. -/
  timeBudget : Option TimeBudget
deriving Repr, DecidableEq

namespace Config

/-- The configuration where nothing is asked for. -/
def default : Config where
  k := 2
  iterations := 8
  vnsMaxNeighborhoodOrder := 0
  minCommunitySizes := []
  minimize := false
  concurrency := 4
  randomSeed := none
  minBatchSize := 10000
  maxPerturbationRetries := 100
  timeBudget := none

instance : Inhabited Config := ⟨default⟩

def objective (c : Config) : Objective :=
  .ofMinimize c.minimize

/-- The least size of each community. -/
def resolvedMinSizes (c : Config) : List Nat :=
  if c.minCommunitySizes.isEmpty then List.replicate c.k 0 else c.minCommunitySizes

/-- The number of nodes that the minimum sizes ask for together. -/
def requiredNodes (c : Config) : Except Fault Nat :=
  c.minCommunitySizes.foldlM Checked.add 0

/-- The time limit of a run, in seconds; a fault if their number is no word. -/
def timeLimit? (c : Config) : Except Fault (Option Nat) :=
  match c.timeBudget with
  | some budget => budget.limit?
  | none => .ok none

/-- The time limit of a run, in seconds, whose number wraps around. -/
def timeLimit (c : Config) : Option Nat :=
  c.timeBudget.bind TimeBudget.limit

/-- Limits the time of a run to a number of seconds, next to the minutes that
are set already. -/
def withSeconds (c : Config) (seconds : Nat) : Config :=
  { c with timeBudget := some ⟨some seconds, c.timeBudget.bind (·.minutes)⟩ }

/-- Limits the time of a run to a number of minutes, next to the seconds that
are set already. -/
def withMinutes (c : Config) (minutes : Nat) : Config :=
  { c with timeBudget := some ⟨c.timeBudget.bind (·.seconds), some minutes⟩ }

inductive Problem
  | noCommunities
  | noIterations
  | noWorkers
  | emptyBatches
  | noRetries
  /-- There are `found` minimum sizes for `k` communities. -/
  | minSizesLength (found k : Nat)
  /-- The minimum sizes sum to more than there are nodes. -/
  | minSizesSum (required nodeCount : Nat)
deriving Repr, DecidableEq

def Problem.message : Problem → String
  | noCommunities => "k must be at least 1"
  | noIterations => "iterations must be at least 1"
  | noWorkers => "concurrency must be at least 1"
  | emptyBatches => "min_batch_size must be at least 1"
  | noRetries => "max_perturbation_retries must be at least 1"
  | minSizesLength found k =>
      s!"min_community_sizes has {found} entries, expected k = {k}"
  | minSizesSum required nodeCount =>
      s!"min_community_sizes sum to {required}, but the graph has only {nodeCount} nodes"

/-- The first problem of a configuration on its own. -/
def problem? (c : Config) : Option Problem :=
  if c.k < 1 then some .noCommunities
  else if c.iterations < 1 then some .noIterations
  else if c.concurrency < 1 then some .noWorkers
  else if c.minBatchSize < 1 then some .emptyBatches
  else if c.maxPerturbationRetries < 1 then some .noRetries
  else if c.minCommunitySizes ≠ [] ∧ c.minCommunitySizes.length ≠ c.k then
    some (.minSizesLength c.minCommunitySizes.length c.k)
  else none

/-- The first problem of a configuration for a graph of `nodeCount` nodes. -/
def problemFor? (c : Config) (nodeCount : Nat) : Except Fault (Option Problem) :=
  match c.problem? with
  | some problem => .ok (some problem)
  | none => do
      let required ← c.requiredNodes
      return if nodeCount < required then some (.minSizesSum required nodeCount) else none

def describeBudget (b : TimeBudget) : String :=
  Text.record "TerminationConfig" [
    ("seconds_spent_limit", Text.optional toString b.seconds),
    ("minutes_spent_limit", Text.optional toString b.minutes)]

def describe (c : Config) : String :=
  Text.record "KCutConfig" [
    ("k", toString c.k),
    ("iterations", toString c.iterations),
    ("vns_max_neighborhood_order", toString c.vnsMaxNeighborhoodOrder),
    ("min_community_sizes", Text.sequence (c.minCommunitySizes.map toString)),
    ("minimize", Text.truth c.minimize),
    ("concurrency", toString c.concurrency),
    ("random_seed", Text.optional toString c.randomSeed),
    ("min_batch_size", toString c.minBatchSize),
    ("max_perturbation_retries", toString c.maxPerturbationRetries),
    ("termination", Text.optional describeBudget c.timeBudget)]

end Config

/-- Why no configuration could be had. -/
inductive ConfigError
  | io (text : String)
  /-- The text is no TOML document, or holds no configuration. -/
  | toml
  /-- The text is no YAML document, or holds no configuration. -/
  | yaml
  /-- The configuration does not meet a condition. -/
  | invalid (text : String)
deriving Repr, DecidableEq

/-- The text of an error; a reader of documents does not say where it failed. -/
def ConfigError.message : ConfigError → String
  | io text => "IO error: " ++ text
  | toml => "TOML parse error"
  | yaml => "YAML parse error"
  | invalid text => "Invalid configuration: " ++ text

/-- An error in a configuration as a failure of the solver. -/
def ConfigError.toFailure (e : ConfigError) : Failure :=
  .config e.message

def Config.Problem.toError (p : Problem) : ConfigError :=
  .invalid p.message

end KCut
