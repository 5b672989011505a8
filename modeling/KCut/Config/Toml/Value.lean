import KCut.Config.Format

/-!
# KCut.Config.Toml.Value

The values of TOML documents.
-/

namespace KCut.Config.Toml

inductive Value
  | truth (b : Bool)
  | integer (i : Int)
  /-- A fraction, as it was written. -/
  | fraction (word : String)
  /-- A date, a time of day or both, as it was written. -/
  | moment (word : String)
  | text (s : String)
  | list (items : List Value)
  | table (entries : List (String × Value))
deriving Repr, Inhabited

namespace Value

def natural? : Value → Option Nat
  | integer i => if 0 ≤ i then some i.toNat else none
  | _ => none

def truth? : Value → Option Bool
  | truth b => some b
  | _ => none

def items? : Value → Option (List Value)
  | list items => some items
  | _ => none

/-- The entries of a table. It may be given as the list of its values in the
order of their names, and a moment counts as a table with none of the names. -/
def entries? (names : List String) : Value → Option (List (String × Value))
  | table entries => some entries
  | list items => if names.length ≤ items.length then some (names.zip items) else none
  | moment _ => some []
  | _ => none

end Value

/-- What the values of a document are good for. Every value that is there is
given: there is no null. -/
def format : Format Value where
  natural? := Value.natural?
  truth? := Value.truth?
  isGiven? _ := some true
  items? := Value.items?
  entries? := Value.entries?

end KCut.Config.Toml
