import KCut.Config.Basic

/-!
# KCut.Config.Format

Formats of configuration texts, and the settings read from them.

Design points:

* A format says what its values are good for: as a natural number, a truth
  value, a list or a table. How it writes them, and which of its values may
  stand for several of these, is its own business.
* A value is looked at only when a setting asks for it. Keys that name no
  setting are passed over with whatever they hold.
* A key that names a setting may stand once; texts of a format without repeated
  keys never get that far.
-/

namespace KCut.Config

/-- What the values of a format are good for. Each answer is none for a value
that does not fit. -/
structure Format (δ : Type) where
  natural? : δ → Option Nat
  truth? : δ → Option Bool
  /-- Whether an optional setting is made with a value. -/
  isGiven? : δ → Option Bool
  items? : δ → Option (List δ)
  /-- The entries of a table in which keys of the given names are looked for. -/
  entries? : List String → δ → Option (List (String × δ))

namespace Format

variable {δ β : Type}

/-- The values of a setting of 32 bits. -/
def limit32 : Nat := 0x1_0000_0000

/-- The values of a setting of 64 bits. -/
def limit64 : Nat := 0x1_0000_0000_0000_0000

/-- A natural number below a limit. -/
def naturalBelow? (f : Format δ) (limit : Nat) (value : δ) : Option Nat := do
  let n ← f.natural? value
  if n < limit then some n else none

/-- The value of an optional setting, with a reader for a value that is given. -/
def optional? (f : Format δ) (read : δ → Option β) (value : δ) : Option (Option β) := do
  if ← f.isGiven? value then return some (← read value) else return none

/-- A list, with a reader for its items. -/
def list? (f : Format δ) (read : δ → Option β) (value : δ) : Option (List β) := do
  (← f.items? value).mapM read

/-- Reads a table into a record: `field` gives the record with one more setting.
Keys that are not among `names` are passed over, and the others may stand once. -/
def record? (f : Format δ) (names : List String) (field : β → String → δ → Option β)
    (start : β) (value : δ) : Option β := do
  let entries := (← f.entries? names value).filter (names.contains ·.1)
  if (entries.map Prod.fst).Nodup then
    entries.foldlM (fun record entry => field record entry.1 entry.2) start
  else none

/-- A time budget in which a setting has been made. -/
def budgetField (f : Format δ) (b : TimeBudget) (key : String) (value : δ) :
    Option TimeBudget := do
  let limit ← f.optional? (f.naturalBelow? limit64) value
  match key with
  | "seconds_spent_limit" => return { b with seconds := limit }
  | "minutes_spent_limit" => return { b with minutes := limit }
  | _ => return b

def budget? (f : Format δ) (value : δ) : Option TimeBudget :=
  f.record? ["seconds_spent_limit", "minutes_spent_limit"] f.budgetField ⟨none, none⟩ value

def settingNames : List String :=
  ["k", "iterations", "vns_max_neighborhood_order", "min_community_sizes", "minimize",
    "concurrency", "random_seed", "min_batch_size", "max_perturbation_retries", "termination"]

/-- A configuration in which a setting has been made. -/
def setting (f : Format δ) (c : Config) (key : String) (value : δ) : Option Config := do
  let natural := f.naturalBelow? limit64
  match key with
  | "k" => return { c with k := ← f.naturalBelow? limit32 value }
  | "iterations" => return { c with iterations := ← natural value }
  | "vns_max_neighborhood_order" =>
      return { c with vnsMaxNeighborhoodOrder := ← natural value }
  | "min_community_sizes" =>
      return { c with minCommunitySizes := ← f.list? natural value }
  | "minimize" => return { c with minimize := ← f.truth? value }
  | "concurrency" => return { c with concurrency := ← natural value }
  | "random_seed" => return { c with randomSeed := ← f.optional? natural value }
  | "min_batch_size" => return { c with minBatchSize := ← natural value }
  | "max_perturbation_retries" =>
      return { c with maxPerturbationRetries := ← natural value }
  | "termination" => return { c with timeBudget := ← f.optional? f.budget? value }
  | _ => return c

/-- The configuration that a value holds. -/
def config? (f : Format δ) (value : δ) : Option Config :=
  f.record? settingNames f.setting .default value

end Format

end KCut.Config
