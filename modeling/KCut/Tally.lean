import KCut.Fault

/-!
# KCut.Tally

Counters of the nodes in each community.

Counters are 64-bit words and wrap around. A tally that agrees with an
assignment never comes near either end: it is decremented only for a node that
it has counted.
-/

namespace KCut

/-- A counter for each of the communities `0, 1, …`. -/
abbrev Tally := Array Nat

namespace Tally

/-- The number of values of a counter. -/
def modulus : Nat := 0x1_0000_0000_0000_0000

/-- The counter after `n`. -/
def succ (n : Nat) : Nat :=
  if n + 1 = modulus then 0 else n + 1

/-- The counter before `n`. -/
def pred (n : Nat) : Nat :=
  if n = 0 then modulus - 1 else n - 1

/-- `k` counters at zero. -/
def zero (k : Nat) : Tally :=
  Array.replicate k 0

def get (t : Tally) (community : Nat) : Except Fault Nat :=
  Buffer.read t community

def increment (t : Tally) (community : Nat) : Except Fault Tally :=
  Buffer.update t community succ

def decrement (t : Tally) (community : Nat) : Except Fault Tally :=
  Buffer.update t community pred

/-- Counts `delta` more nodes in a community. -/
def add (t : Tally) (community delta : Nat) : Except Fault Tally :=
  Buffer.update t community fun n => (n + delta) % modulus

/-- The same counters at zero. -/
def reset (t : Tally) : Tally :=
  zero t.size

/-- Takes over the counters of `source`, which has no more of them; counters
past those of `source` stay as they are. -/
def copyFrom (t source : Tally) : Except Fault Tally :=
  if source.size ≤ t.size then .ok (source ++ t.extract source.size t.size)
  else .error (.sizeMismatch t.size source.size)

/-- The number of nodes counted. -/
def total (t : Tally) : Nat :=
  t.foldl (· + ·) 0

/-- A move of one node between two communities. -/
def move (t : Tally) (source target : Nat) : Except Fault Tally := do
  (← t.decrement source).increment target

def count (k : Nat) (assignment : Array Nat) : Except Fault Tally :=
  assignment.toList.foldlM increment (zero k)

@[simp] theorem size_zero (k : Nat) : (zero k).size = k := by
  simp [zero]

@[simp] theorem size_reset (t : Tally) : t.reset.size = t.size := by
  simp [reset]

theorem copyFrom_of_size_eq {t source : Tally} (h : source.size = t.size) :
    t.copyFrom source = .ok source := by
  simp [copyFrom, h]

end Tally

end KCut
