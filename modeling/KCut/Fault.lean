/-!
# KCut.Fault

Faults: the ways in which an operation can be called outside its contract.

Design points:

* A fault is not an error of the caller's *input* (those are reported with a
  text, see `KCut.Failure`). It says that a buffer, a range or a table did not
  fit the operation, and the operation then has no result at all.
* Buffers are arrays whose accesses are checked: `Buffer.read`, `Buffer.write`,
  `Buffer.swap` and `Buffer.slice` give the fault instead of a default, so a run
  that returns has made no access outside its buffers.
* What is sorted before a run (`Rows.ofList`, `Graph.incoming`) is defined by
  plain folds. Each has a checked counterpart (`Rows.sort`, `Graph.sortIncoming`)
  that gives the same.
* Words have 64 bits. `Checked.add`, `Checked.mul` and `Checked.sub` give the
  fault where a result is no such word.
-/

namespace KCut

/-- Why an operation has no result. -/
inductive Fault
  /-- An access at `index` to a buffer of `size` cells. -/
  | outside (index size : Nat)
  /-- A slice from `start` to `stop` of a buffer of `size` cells. -/
  | badSlice (start stop size : Nat)
  /-- A draw from the range `low, …, high - 1`, which is empty. -/
  | emptyRange (low high : Nat)
  /-- A buffer of `found` cells where one of `expected` cells has to stand. -/
  | sizeMismatch (expected found : Nat)
  /-- A table of affinities with no columns has rows to fill. -/
  | noColumns
  /-- The result `sum` is too large for its word. -/
  | overflow (sum : Nat)
  /-- More is taken away from `n` than it holds. -/
  | underflow (n less : Nat)
  /-- A search ran past the bound on its rounds. -/
  | boundExceeded
deriving Repr, DecidableEq, Inhabited

namespace Buffer

variable {β : Type}

/-- The content of cell `i`. -/
def read (xs : Array β) (i : Nat) : Except Fault β :=
  match xs[i]? with
  | some x => .ok x
  | none => .error (.outside i xs.size)

/-- The buffer with `x` in cell `i`. -/
def write (xs : Array β) (i : Nat) (x : β) : Except Fault (Array β) :=
  if i < xs.size then .ok (xs.setIfInBounds i x) else .error (.outside i xs.size)

/-- The buffer with `f` applied to the content of cell `i`. -/
def update (xs : Array β) (i : Nat) (f : β → β) : Except Fault (Array β) :=
  if i < xs.size then .ok (xs.modify i f) else .error (.outside i xs.size)

/-- The buffer with the contents of two cells exchanged. -/
def swap (xs : Array β) (i j : Nat) : Except Fault (Array β) :=
  if max i j < xs.size then .ok (xs.swapIfInBounds i j) else .error (.outside (max i j) xs.size)

/-- The cells `start, …, stop - 1`. -/
def slice (xs : Array β) (start stop : Nat) : Except Fault (Array β) :=
  if start ≤ stop ∧ stop ≤ xs.size then .ok (xs.extract start stop)
  else .error (.badSlice start stop xs.size)

theorem read_eq_ok {xs : Array β} {i : Nat} (h : i < xs.size) : read xs i = .ok xs[i] := by
  simp [read, h]

theorem read_eq_error {xs : Array β} {i : Nat} (h : xs.size ≤ i) :
    read xs i = .error (.outside i xs.size) := by
  simp [read, Array.getElem?_eq_none h]

theorem write_eq_ok {xs : Array β} {i : Nat} (h : i < xs.size) (x : β) :
    write xs i x = .ok (xs.setIfInBounds i x) :=
  if_pos h

theorem update_eq_ok {xs : Array β} {i : Nat} (h : i < xs.size) (f : β → β) :
    update xs i f = .ok (xs.modify i f) :=
  if_pos h

theorem swap_eq_ok {xs : Array β} {i j : Nat} (hi : i < xs.size) (hj : j < xs.size) :
    swap xs i j = .ok (xs.swapIfInBounds i j) :=
  if_pos (Nat.max_lt.2 ⟨hi, hj⟩)

theorem slice_eq_ok {xs : Array β} {start stop : Nat} (h : start ≤ stop) (hstop : stop ≤ xs.size) :
    slice xs start stop = .ok (xs.extract start stop) :=
  if_pos ⟨h, hstop⟩

end Buffer

namespace Checked

/-- The number of values of a word. -/
def bound : Nat := 0x1_0000_0000_0000_0000

/-- The sum of two words. -/
def add (m n : Nat) : Except Fault Nat :=
  if m + n < bound then .ok (m + n) else .error (.overflow (m + n))

/-- The product of two words. -/
def mul (m n : Nat) : Except Fault Nat :=
  if m * n < bound then .ok (m * n) else .error (.overflow (m * n))

/-- The difference of two words. -/
def sub (n less : Nat) : Except Fault Nat :=
  if less ≤ n then .ok (n - less) else .error (.underflow n less)

theorem add_eq_ok {m n : Nat} (h : m + n < bound) : add m n = .ok (m + n) :=
  if_pos h

theorem mul_eq_ok {m n : Nat} (h : m * n < bound) : mul m n = .ok (m * n) :=
  if_pos h

theorem sub_eq_ok {n less : Nat} (h : less ≤ n) : sub n less = .ok (n - less) :=
  if_pos h

end Checked

end KCut
