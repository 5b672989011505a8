import KCut.Config.Toml.Value

/-!
# KCut.Config.Toml.Table

Tables of a TOML document while it is being read.

Design points:

* A table remembers how it came about. One that only stands on the way to
  another table is *implicit* and may still get a header of its own; one that a
  dotted key made may only be filled by further dotted keys.
* A key holds a value, a table or an array of tables. Paths lead through the
  newest table of an array.
-/

namespace KCut.Config.Toml

mutual

inductive Item
  /-- A value; nothing can be added to it. -/
  | value (v : Value)
  | table (t : Table)
  | tables (newest : Table) (older : List Table)

/-- A table: whether it is implicit, whether a dotted key made it, and what its
keys hold. -/
inductive Table
  | mk (isImplicit dotted : Bool) (entries : List (String × Item))

end

namespace Table

/-- Whether the table only stands on the way to another one. -/
def isImplicit : Table → Bool
  | mk isImplicit _ _ => isImplicit

/-- Whether a dotted key made the table. -/
def dotted : Table → Bool
  | mk _ dotted _ => dotted

/-- What the keys hold. -/
def entries : Table → List (String × Item)
  | mk _ _ entries => entries

/-- A table with a header of its own. -/
def headed (entries : List (String × Item)) : Table :=
  mk false false entries

def find? (t : Table) (key : String) : Option Item :=
  t.entries.lookup key

def set (t : Table) (key : String) (item : Item) : Table :=
  mk t.isImplicit t.dotted
    (if (t.find? key).isSome then
      t.entries.map fun entry => if entry.1 == key then (key, item) else entry
    else t.entries ++ [(key, item)])

/-- Changes the table at the end of a path. Missing tables on the way are made;
`byDots` says whether the path is a dotted key, which must not lead through a
table with a header. -/
def change (byDots : Bool) (f : Table → Option Table) : List String → Table → Option Table
  | [], t => f t
  | key :: path, t => do
      match t.find? key with
      | none => return t.set key (.table (← change byDots f path (mk true byDots [])))
      | some (.value _) => none
      | some (.table child) =>
          if byDots && !child.isImplicit then none
          else return t.set key (.table (← change byDots f path child))
      | some (.tables newest older) =>
          return t.set key (.tables (← change byDots f path newest) older)

/-- Sets the value at the end of a dotted key. A key is set once, and a table is
filled either by dotted keys or under its header. -/
def insert (path : List String) (key : String) (value : Value) : Table → Option Table :=
  change true (fun t =>
    if t.dotted = path.isEmpty ∨ (t.find? key).isSome then none
    else some (t.set key (.value value))) path

def openTable (path : List String) (key : String) : Table → Option Table :=
  change false (fun t =>
    match t.find? key with
    | none => some (t.set key (.table (headed [])))
    | some (.table child) =>
        if child.isImplicit && !child.dotted then
          some (t.set key (.table (headed child.entries)))
        else none
    | some _ => none) path

/-- Opens a new table of an array. -/
def openElement (path : List String) (key : String) : Table → Option Table :=
  change false (fun t =>
    match t.find? key with
    | none => some (t.set key (.tables (headed []) []))
    | some (.tables newest older) => some (t.set key (.tables (headed []) (newest :: older)))
    | some _ => none) path

end Table

mutual

def Item.toValue : Item → Value
  | .value v => v
  | .table t => t.toValue
  | .tables newest older => .list (values older [newest.toValue])

def Table.toValue : Table → Value
  | .mk _ _ entries => .table (fields entries)

/-- The entries of a table's value. -/
def fields : List (String × Item) → List (String × Value)
  | [] => []
  | (key, item) :: rest => (key, item.toValue) :: fields rest

/-- The values of tables, newest first, in front of others. -/
def values : List Table → List Value → List Value
  | [], done => done
  | t :: rest, done => values rest (t.toValue :: done)

end

end KCut.Config.Toml
