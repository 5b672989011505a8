import KCut.Fault

/-!
# KCut.Graph.Rows

Compressed rows: a sequence of keyed items, stored so that the items of one key
lie next to each other.

Design points:

* Row `v` occupies the slots `offsets[v], …, offsets[v + 1] - 1` of `items`.
* `Rows.ofList` is a counting sort. A first pass counts the keys, the running
  totals of the counts are the offsets, and a second pass gives every item the
  slot under the moving cursor of its row. The slots are computed by `slots`
  apart from the writing, so that what the second pass touches can be stated.
* The sort is stable: the items of a row keep the order they had in the list.
* `Rows.sort` is the sort access by access: each one is checked, and each item
  is written as soon as it has its slot. For keys of rows it gives the same.
* Both the outgoing and the incoming relationships of a graph are stored in
  this way.
-/

namespace KCut

/-- Items grouped by the key of their row. -/
structure Rows (β : Type) where
  /-- Where each row starts; one entry more than there are rows. -/
  offsets : Array Nat
  /-- The items of all rows, row by row. -/
  items : Array β
deriving Repr

namespace Rows

variable {β : Type}

/-- How often each of the keys `0, …, n - 1` occurs. -/
def countKeys (n : Nat) (keys : List Nat) : Array Nat :=
  keys.foldl (fun counts key => counts.modify key (· + 1)) (Array.replicate n 0)

/-- The running totals of the counts, from zero. -/
def runningTotals (counts : Array Nat) : Array Nat :=
  (counts.foldl
    (fun (totals, total) count =>
      let total := total + count
      (totals.push total, total))
    (#[0], 0)).1

/-- One step of the fill: the slot under the cursor of the key's row, after
which that cursor moves on. -/
def takeSlot (state : Array Nat × Array Nat) (key : Nat) : Array Nat × Array Nat :=
  let slot := state.1.getD key 0
  (state.1.modify key (· + 1), state.2.push slot)

/-- The slots given to a sequence of keys, with the cursors starting at `offsets`. -/
def slots (offsets : Array Nat) (keys : List Nat) : Array Nat :=
  (keys.foldl takeSlot (offsets, #[])).2

/-- The rows `0, …, n - 1` of a list of keyed items. -/
def ofList [Inhabited β] (n : Nat) (entries : List (Nat × β)) : Rows β :=
  let keys := entries.map (·.1)
  let offsets := runningTotals (countKeys n keys)
  let blank := Array.replicate (offsets.getD n 0) default
  let placed := (slots offsets keys).toList.zip (entries.map (·.2))
  { offsets, items := placed.foldl (fun items (slot, x) => items.setIfInBounds slot x) blank }

/-- Counts one more item with the given key. -/
def countKey (counts : Array Nat) (key : Nat) : Except Fault (Array Nat) :=
  Buffer.update counts key (· + 1)

/-- Ends a row of `count` items behind the rows before it. -/
def endRow (offsets : Array Nat) (count : Nat) : Except Fault (Array Nat) := do
  let last ← Buffer.read offsets (← Checked.sub offsets.size 1)
  return offsets.push (last + count)

/-- The blank items of `n` rows that start at `offsets`, and their cursors. -/
def blankItems [Inhabited β] (n : Nat) (offsets : Array Nat) :
    Except Fault (Array β × Array Nat) := do
  let total ← Buffer.read offsets n
  let cursors ← Buffer.slice offsets 0 n
  return (Array.replicate total default, cursors)

/-- Writes an item into the slot under the cursor of its row, after which that
cursor moves on. -/
def place (state : Array β × Array Nat) (entry : Nat × β) :
    Except Fault (Array β × Array Nat) := do
  let slot ← Buffer.read state.2 entry.1
  let items ← Buffer.write state.1 slot entry.2
  return (items, ← Buffer.update state.2 entry.1 (· + 1))

/-- The rows `0, …, n - 1` of a list of keyed items; a fault if some key is of
no row. -/
def sort [Inhabited β] (n : Nat) (entries : List (Nat × β)) : Except Fault (Rows β) := do
  let counts ← (entries.map (·.1)).foldlM countKey (Array.replicate n 0)
  let offsets ← counts.toList.foldlM endRow #[0]
  let (items, _) ← entries.foldlM place (← blankItems n offsets)
  return ⟨offsets, items⟩

/-- The items of row `v`, in storage order; none if there is no such row. -/
def row (r : Rows β) (v : Nat) : List β :=
  (r.items.extract (r.offsets.getD v 0) (r.offsets.getD (v + 1) 0)).toList

/-- The items of row `v`; a fault if there is no such row. -/
def row? (r : Rows β) (v : Nat) : Except Fault (List β) := do
  let start ← Buffer.read r.offsets v
  let stop ← Buffer.read r.offsets (v + 1)
  return (← Buffer.slice r.items start stop).toList

/-- The number of items in row `v`; zero if there is no such row. -/
def rowSize (r : Rows β) (v : Nat) : Nat :=
  r.offsets.getD (v + 1) 0 - r.offsets.getD v 0

/-- The number of items in row `v`; a fault if there is no such row. -/
def rowSize? (r : Rows β) (v : Nat) : Except Fault Nat := do
  let stop ← Buffer.read r.offsets (v + 1)
  let start ← Buffer.read r.offsets v
  Checked.sub stop start

end Rows

end KCut
