import KCut.Journal
import KCut.Random.Stream
import KCut.Statistics
import KCut.Termination

/-!
# KCut.Run

The scope of a run and the steps that act on it.

Design points:

* A step of a run is a function from a scope to a result and the scope after
  it, or a fault. Each primitive step below changes one part of the scope and
  leaves the others alone.
* The order of the draws and of the polls is part of what a run means: a draw
  moves the random stream on, and a poll may change what the next poll answers.
-/

namespace KCut

/-- What the steps of a run share. -/
structure Scope (α : Type) where
  /-- The number of workers, at least one. -/
  concurrency : Nat
  seed : UInt64
  /-- The random stream, at the next word to be drawn. -/
  stream : Random.Stream
  /-- The condition under which the run stops. -/
  termination : Termination
  statistics : Statistics
  journal : Journal α

def Scope.start {α : Type} (concurrency : Nat) (seed : UInt64) (termination : Termination) :
    Scope α where
  concurrency := max concurrency 1
  seed := seed
  stream := .ofSeed seed
  termination := termination
  statistics := .zero
  journal := #[]

/-- A step of a run with a result in `β`. -/
abbrev Run (α β : Type) := StateT (Scope α) (Except Fault) β

namespace Run

variable {α : Type}

def enter (entry : Entry α) : Run α Unit := fun s =>
  .ok ((), { s with journal := s.journal.push entry })

def begin (task : Task) : Run α Unit :=
  enter (.task (.began task))

def finish (task : Task) : Run α Unit :=
  enter (.task (.ended task))

def note (n : Note α) : Run α Unit :=
  enter (.noted n)

/-- Asks whether the run has to stop. -/
def poll : Run α Bool := fun s =>
  match s.termination.poll with
  | (stop, termination) =>
      .ok (stop, { s with
        termination
        journal := s.journal.push (.polled stop s.stream.position) })

/-- Draws a number from `low, …, high - 1`. -/
def draw (low high : Nat) : Run α Nat := fun s =>
  match s.stream.range low high with
  | .ok (x, stream) => .ok (x, { s with stream })
  | .error fault => .error fault

/-- Splits a stream off the random stream of the run. -/
def split : Run α Random.Stream := fun s =>
  match s.stream.split with
  | (stream, rest) => .ok (stream, { s with stream := rest })

def concurrency : Run α Nat := fun s =>
  .ok (s.concurrency, s)

/-- Changes what has been counted. -/
def count (f : Statistics → Statistics) : Run α Unit := fun s =>
  .ok ((), { s with statistics := f s.statistics })

/-- The result of a checked computation, as a step that changes nothing. -/
def check {β : Type} (x : Except Fault β) : Run α β := fun s =>
  match x with
  | .ok b => .ok (b, s)
  | .error fault => .error fault

end Run

/-- A one-line description of a scope with the given number of listeners. -/
def Scope.describe {α : Type} (s : Scope α) (listeners : Nat) : String :=
  Text.record "SolverScope" [
    ("workers", describeWorkers s.concurrency),
    ("seed", toString s.seed.toNat),
    ("termination", s.termination.describe),
    ("progress", describeListeners listeners)]

end KCut
