import Mathlib.Algebra.GroupWithZero.Nat
import KCut.Config.Basic
import KCut.Proofs.Checked

/-!
# KCut.Proofs.Config.Accepted

What the checks of a configuration promise, and which of several problems they report.
-/

namespace KCut.Config

/-- The conditions that a configuration has to meet for a graph of `n` nodes. -/
structure Accepted (c : Config) (n : Nat) : Prop where
  k_pos : 0 < c.k
  iterations_pos : 0 < c.iterations
  concurrency_pos : 0 < c.concurrency
  minBatchSize_pos : 0 < c.minBatchSize
  retries_pos : 0 < c.maxPerturbationRetries
  length_minSizes : c.resolvedMinSizes.length = c.k
  sum_minSizes : c.resolvedMinSizes.sum ≤ n

/-- The numbers of a configuration for a graph of `n` nodes fit into their words: the sum of two
community ids, the cells of a table, the minimum sizes together and the seconds of a time limit. -/
structure Representable (c : Config) (n : Nat) : Prop where
  k_le : c.k ≤ 2 ^ 31
  cells_lt : n * c.k < 2 ^ 64
  minSizes_lt : c.minCommunitySizes.sum < 2 ^ 64
  limit_lt : ∀ budget, c.timeBudget = some budget → budget.total < 2 ^ 64

variable {c : Config} {n : Nat}

/-- Left out minimum sizes are zeros, of which there are as many as communities. -/
theorem length_resolvedMinSizes :
    c.resolvedMinSizes.length = c.k ↔
      ¬(c.minCommunitySizes ≠ [] ∧ c.minCommunitySizes.length ≠ c.k) := by
  rw [resolvedMinSizes]
  cases hsizes : c.minCommunitySizes with
  | nil => simp
  | cons least rest => simp

theorem sum_resolvedMinSizes : c.resolvedMinSizes.sum = c.minCommunitySizes.sum := by
  rw [resolvedMinSizes]
  cases hsizes : c.minCommunitySizes with
  | nil => simp
  | cons least rest => simp

/-- Minimum sizes whose sum is a word are summed up. -/
theorem requiredNodes_eq_ok (h : c.minCommunitySizes.sum < Checked.bound) :
    c.requiredNodes = .ok c.minCommunitySizes.sum := by
  have hstart : 0 + c.minCommunitySizes.sum < Checked.bound := by rwa [Nat.zero_add]
  rw [requiredNodes, Checked.foldlM_add_eq_ok hstart, Nat.zero_add]

/-- A time limit whose seconds are a word does not wrap around. -/
theorem Representable.timeLimit?_eq (h : c.Representable n) : c.timeLimit? = .ok c.timeLimit := by
  rw [timeLimit?, timeLimit]
  cases hbudget : c.timeBudget with
  | none => rfl
  | some budget =>
      have htotal : budget.seconds.getD 0 + budget.minutes.getD 0 * 60 < Checked.bound :=
        h.limit_lt budget hbudget
      dsimp only
      rw [TimeBudget.limit?, Checked.mul_eq_ok (by omega), ok_bind, Checked.add_eq_ok htotal,
        ok_bind, Option.bind_some, TimeBudget.limit, TimeBudget.total, Nat.mod_eq_of_lt htotal]
      rfl

/-- One check in front of others. -/
theorem check_eq_none {p : Prop} [Decidable p] {problem : Problem} {rest : Option Problem} :
    (if p then some problem else rest) = none ↔ ¬p ∧ rest = none := by
  split
  · next h => simp [h]
  · next h => simp [h]

theorem problem?_eq_none_iff :
    c.problem? = none ↔ 0 < c.k ∧ 0 < c.iterations ∧ 0 < c.concurrency ∧ 0 < c.minBatchSize ∧
      0 < c.maxPerturbationRetries ∧ c.resolvedMinSizes.length = c.k := by
  rw [problem?, length_resolvedMinSizes]
  simp only [check_eq_none, Nat.lt_one_iff, ← Nat.pos_iff_ne_zero, and_true]

/-- **Where the checks find no problem, all conditions are met.** -/
theorem accepted_of_problemFor? (h : c.problemFor? n = .ok none) : c.Accepted n := by
  rw [problemFor?] at h
  split at h
  · exact nomatch h
  next hproblem =>
  obtain ⟨hk, hiterations, hconcurrency, hbatch, hretries, hlength⟩ :=
    problem?_eq_none_iff.1 hproblem
  obtain ⟨required, hrequired, h⟩ := exists_of_bind_eq_ok h
  obtain ⟨hsum, -⟩ := check_eq_none.1 (Except.ok.inj h)
  rw [requiredNodes] at hrequired
  rw [Checked.eq_of_foldlM_add_eq_ok hrequired, Nat.zero_add, ← sum_resolvedMinSizes] at hsum
  exact ⟨hk, hiterations, hconcurrency, hbatch, hretries, hlength, Nat.le_of_not_lt hsum⟩

/-! ### The order of the checks -/

/-- What is wrong with a configuration for a graph of `n` nodes, in the order in which it
is looked for, each with the problem that is reported. -/
def checks (c : Config) (n : Nat) : List (Bool × Problem) := [
  (c.k = 0, .noCommunities),
  (c.iterations = 0, .noIterations),
  (c.concurrency = 0, .noWorkers),
  (c.minBatchSize = 0, .emptyBatches),
  (c.maxPerturbationRetries = 0, .noRetries),
  (c.minCommunitySizes ≠ [] ∧ c.minCommunitySizes.length ≠ c.k,
    .minSizesLength c.minCommunitySizes.length c.k),
  (n < c.minCommunitySizes.sum, .minSizesSum c.minCommunitySizes.sum n)]

/-- The problem of the first check that fails. -/
def firstFailed (checks : List (Bool × Problem)) : Option Problem :=
  (checks.find? (·.1)).map (·.2)

theorem firstFailed_cons {p : Prop} [Decidable p] {problem : Problem}
    {rest : List (Bool × Problem)} :
    firstFailed ((decide p, problem) :: rest) = if p then some problem else firstFailed rest := by
  by_cases h : p
  · simp [firstFailed, h]
  · simp [firstFailed, h]

theorem firstFailed_eq_some_iff {checks : List (Bool × Problem)} {problem : Problem} :
    firstFailed checks = some problem ↔ checks.find? (·.1) = some (true, problem) := by
  rw [firstFailed, Option.map_eq_some_iff]
  constructor
  · rintro ⟨⟨failed, problem'⟩, hfind, rfl⟩
    obtain rfl : failed = true := List.find?_some hfind
    exact hfind
  · exact fun hfind => ⟨_, hfind, rfl⟩

theorem firstFailed_eq_none_iff {checks : List (Bool × Problem)} :
    firstFailed checks = none ↔ ∀ check ∈ checks, check.1 = false := by
  rw [firstFailed, Option.map_eq_none_iff, List.find?_eq_none]
  simp only [Bool.not_eq_true]

/-- A check in front of others stays in front of them when more follow. -/
theorem check_or {p : Prop} [Decidable p] {problem : Problem} {rest more : Option Problem} :
    (if p then some problem else rest).or more = if p then some problem else rest.or more := by
  split <;> rfl

/-- **The first check that fails is reported.** -/
theorem Representable.problemFor?_eq (h : c.Representable n) :
    c.problemFor? n = .ok (firstFailed (c.checks n)) := by
  have hor : c.problemFor? n = .ok (c.problem?.or
      (if n < c.minCommunitySizes.sum then some (.minSizesSum c.minCommunitySizes.sum n)
        else none)) := by
    rw [problemFor?, requiredNodes_eq_ok h.minSizes_lt]
    cases c.problem? <;> rfl
  rw [hor, problem?]
  simp only [check_or, Option.none_or, checks, firstFailed_cons, Nat.lt_one_iff]
  rfl

/-- Where no check fails, no problem is reported. -/
theorem Representable.problemFor?_eq_none (h : c.Representable n)
    (hchecks : ∀ check ∈ c.checks n, check.1 = false) : c.problemFor? n = .ok none := by
  rw [h.problemFor?_eq, firstFailed_eq_none_iff.2 hchecks]

end KCut.Config
