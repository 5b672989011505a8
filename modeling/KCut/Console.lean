import KCut.Journal
import KCut.Text.Fixed
import KCut.Text.Grouped
import KCut.Text.Quoted

/-!
# KCut.Console

The lines that a console shows of a run.

Design points:

* A line is made from the fields of one log entry. `Summary.record` takes a
  field if its name is known and its value was recorded in the way that the name
  asks for, and passes over it otherwise.
* Three entries are shown: the start of a run, a new best candidate and the end
  of a run. Every other entry is silent.
* The time at the front of a line, and at the end of a run's last line, is handed
  over as a text: the library measures no time.
-/

namespace KCut.Console

/-! ### Colors -/

/-- A text in the color with the given number. -/
def paint (color : Nat) (s : String) : String :=
  s!"\x1b[{color}m{s}\x1b[39m"

def bold (s : String) : String :=
  "\x1b[1m" ++ s ++ "\x1b[0m"

def brightBlack : Nat := 90
def brightGreen : Nat := 92
def brightYellow : Nat := 93
def brightMagenta : Nat := 95
def brightCyan : Nat := 96
def brightWhite : Nat := 97

/-! ### Recording -/

/-- The value of a field, by the way in which it is recorded. -/
inductive Recorded
  | word (n : Nat)
  /-- A text that is taken as it stands. -/
  | text (s : String)
  /-- The description of a value; quotes around it are dropped. -/
  | described (s : String)
  | number (x : Float)
deriving Repr

/-- An integer as the 64-bit word that stands for it. -/
def Recorded.ofInt (i : Int) : Recorded :=
  .word (i % 0x1_0000_0000_0000_0000).toNat

/-- Drops the quotes at both ends of a text. -/
def dropQuotes (s : String) : String :=
  let front := s.toList.dropWhile (· == '"')
  String.ofList (front.reverse.dropWhile (· == '"')).reverse

/-- The fields of a log entry that a line may show. -/
structure Summary where
  event : Option String
  objective : Option String
  nodeCount : Option Nat
  relationshipCount : Option Nat
  k : Option Nat
  iterations : Option Nat
  seed : Option Nat
  trial : Option Nat
  trials : Option Nat
  durationMs : Option Nat
  cost : Option Float

namespace Summary

def empty : Summary :=
  ⟨none, none, none, none, none, none, none, none, none, none, none⟩

def recordText (s : Summary) (name text : String) : Summary :=
  match name with
  | "event" => { s with event := text }
  | "objective" => { s with objective := text }
  | _ => s

def recordWord (s : Summary) (name : String) (n : Nat) : Summary :=
  match name with
  | "node_count" => { s with nodeCount := n }
  | "relationship_count" => { s with relationshipCount := n }
  | "k" => { s with k := n }
  | "iterations" => { s with iterations := n }
  | "seed" => { s with seed := n }
  | "trial" => { s with trial := n }
  | "trials" => { s with trials := n }
  | "duration_ms" => { s with durationMs := n }
  | _ => s

def record (s : Summary) (name : String) : Recorded → Summary
  | .word n => s.recordWord name n
  | .text text => s.recordText name text
  | .described text => s.recordText name (dropQuotes text)
  | .number x => if name = "cost" then { s with cost := x } else s

/-- Records the fields of an entry. -/
def ofFields (fields : List (String × Recorded)) : Summary :=
  fields.foldl (fun s (name, value) => s.record name value) empty

/-! ### Lines -/

/-- A count with separators. -/
def countText (n : Option Nat) : String :=
  paint brightYellow (Text.grouped (n.getD 0))

/-- A cost with three places. -/
def costText : Option Float → String
  | some cost => bold (paint brightWhite (Text.fixed 3 cost))
  | none => paint brightBlack "N/A"

/-- The time that a run took, as it was recorded. -/
def durationText (s : Summary) : String :=
  countText s.durationMs

/-- The parts of a line, with a bar between them. -/
def joinParts (parts : List String) : String :=
  " │ ".intercalate parts

/-- The line of an entry, with the texts for the time so far and for the time
that a run took; none if the entry is silent. -/
def line? (s : Summary) (elapsed duration : String) : Option String :=
  match s.event with
  | some "solve_start" => some <| joinParts [
      elapsed ++ " " ++ bold (paint brightGreen "▶") ++ " Solving",
      countText s.nodeCount ++ " nodes",
      countText s.relationshipCount ++ " relationships",
      "k = " ++ countText s.k,
      countText s.iterations ++ " trials",
      paint brightMagenta (s.objective.getD "maximize"),
      "seed " ++ paint brightBlack (toString (s.seed.getD 0))]
  | some "new_best" => some <| joinParts [
      elapsed ++ " " ++ bold (paint brightYellow "★") ++ " New best",
      "trial " ++ countText s.trial,
      "cut " ++ costText s.cost]
  | some "solve_end" => some <| joinParts [
      elapsed ++ " " ++ bold (paint brightCyan "■") ++ " Solving complete",
      "cut " ++ costText s.cost,
      countText s.trials ++ " trials",
      duration ++ " ms"]
  | _ => none

end Summary

/-- A field of a run's log entry as a console records it; a time that was not
measured is not recorded. -/
def recorded? (o : Objective) : Field Float → Option Recorded
  | .count n => some (.word n)
  | .truth b => some (.described (Text.truth b))
  | .text s => some (.text s)
  | .cost c => some (.number (c.report o))
  | .elapsed => none

/-- The summary of a run's log entry. -/
def summarize (o : Objective) (n : Note Float) : Summary :=
  Summary.ofFields (n.fields.filterMap fun (name, value) => (recorded? o value).map (name, ·))

/-- The lines that a console shows of a run. -/
def lines (o : Objective) (elapsed duration : String) (log : List (Note Float)) : List String :=
  log.filterMap fun n => (summarize o n).line? elapsed duration

/-! ### What a console listens to -/

/-- The front of the log targets of the solver. -/
def solverTarget : String := "cutforge_solver"

/-- A console shows the entries of the solver only. -/
def shows (target : String) : Bool :=
  target.startsWith solverTarget

/-- By default, a program's console is set up for the solver's entries of the
level `info` and above. -/
def passesDefault (target : String) (level : Level) : Bool :=
  target.startsWith solverTarget &&
    match level with
    | .error | .warn | .info => true
    | .debug | .trace => false

end KCut.Console
