import KCut.Task

/-!
# KCut.Progress

Listeners to the tasks of a run.

Design points:

* `Counts` is what a counting listener holds; it is a fold over the events that
  the listener has heard.
* A `Tracker` passes each event to all its listeners. Some of them keep the
  events (`recorders`), one is a counter that may listen more than once and then
  counts every event as often, and some write events to the log (`loggers`).
-/

namespace KCut

/-- What a counting listener has heard. -/
structure Counts where
  started : Nat
  ended : Nat
  trials : Nat
  localSearches : Nat
  convergenceRounds : Nat
  vnsRounds : Nat
deriving Repr, DecidableEq, Inhabited

namespace Counts

/-- Nothing has been heard. -/
def zero : Counts := ⟨0, 0, 0, 0, 0, 0⟩

/-- The counts after one more event. -/
def hear (c : Counts) : TaskEvent → Counts
  | .ended _ => { c with ended := c.ended + 1 }
  | .began task =>
      let c := { c with started := c.started + 1 }
      match task with
      | .trial _ => { c with trials := c.trials + 1 }
      | .localSearch => { c with localSearches := c.localSearches + 1 }
      | .computeAffinities => { c with convergenceRounds := c.convergenceRounds + 1 }
      | .vnsRound _ => { c with vnsRounds := c.vnsRounds + 1 }
      | _ => c

/-- The counts of a sequence of events. -/
def ofEvents (events : List TaskEvent) : Counts :=
  events.foldl hear zero

end Counts

/-- Listeners and what they have heard. -/
structure Tracker where
  /-- The events heard by each recording listener. -/
  recorders : Array (Array TaskEvent)
  /-- How often the counter listens. -/
  counterCount : Nat
  /-- What the counter holds. -/
  counts : Counts
  /-- The number of logging listeners. -/
  loggerCount : Nat
  /-- The events written to the log. -/
  logged : Array TaskEvent

namespace Tracker

/-- A tracker with the given number of recording listeners. -/
def new (recorders : Nat) : Tracker :=
  ⟨Array.replicate recorders #[], 0, .zero, 0, #[]⟩

/-- Lets the counter listen once more. -/
def addCounter (t : Tracker) : Tracker :=
  { t with counterCount := t.counterCount + 1 }

/-- Adds a logging listener. -/
def addLogger (t : Tracker) : Tracker :=
  { t with loggerCount := t.loggerCount + 1 }

/-- Sets the counter back. -/
def resetCounts (t : Tracker) : Tracker :=
  { t with counts := .zero }

/-- Passes an event to every listener. -/
def announce (t : Tracker) (event : TaskEvent) : Tracker :=
  { t with
    recorders := t.recorders.map (·.push event)
    counts := Nat.repeat (·.hear event) t.counterCount t.counts
    logged := t.logged ++ Array.replicate t.loggerCount event }

/-- The number of listeners. -/
def listenerCount (t : Tracker) : Nat :=
  t.recorders.size + t.counterCount + t.loggerCount

end Tracker

/-- A one-line description of a tracker with the given number of listeners. -/
def describeListeners (count : Nat) : String :=
  Text.record "ProgressTracker" [("listeners", toString count)]

/-- A one-line description of a pool with the given number of workers. -/
def describeWorkers (concurrency : Nat) : String :=
  Text.record "WorkerPool" [("concurrency", toString concurrency)]

end KCut
