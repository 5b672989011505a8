/-!
# KCut.Statistics

Counters of what a run did.

The counters are natural numbers, so a law may add them up; a report shows them
as 64-bit words, which `asWords` cuts them to.
-/

namespace KCut

structure Statistics where
  /-- Trials that were searched to their end. -/
  trialsCompleted : Nat
  /-- Trials whose candidate became the best one. -/
  bestImprovements : Nat
  localSearchCalls : Nat
  localSearchRounds : Nat
  nodeSwaps : Nat
  vnsRounds : Nat
  /-- Rounds of neighborhood searches that found a better candidate. -/
  vnsImprovements : Nat
  /-- Neighborhood searches that ended because no node could be perturbed. -/
  vnsStuck : Nat
deriving Repr, DecidableEq, Inhabited

namespace Statistics

def zero : Statistics := ⟨0, 0, 0, 0, 0, 0, 0, 0⟩

/-- Counts a searched trial. -/
def recordTrial (s : Statistics) : Statistics :=
  { s with trialsCompleted := s.trialsCompleted + 1 }

/-- Counts a trial that became the best one. -/
def recordBest (s : Statistics) : Statistics :=
  { s with bestImprovements := s.bestImprovements + 1 }

/-- Counts a local search with its rounds and moved nodes. -/
def recordLocalSearch (s : Statistics) (rounds swaps : Nat) : Statistics :=
  { s with
    localSearchCalls := s.localSearchCalls + 1
    localSearchRounds := s.localSearchRounds + rounds
    nodeSwaps := s.nodeSwaps + swaps }

/-- Counts a round of a neighborhood search. -/
def recordVnsRound (s : Statistics) (improved : Bool) : Statistics :=
  { s with
    vnsRounds := s.vnsRounds + 1
    vnsImprovements := if improved then s.vnsImprovements + 1 else s.vnsImprovements }

/-- Counts a neighborhood search that got stuck. -/
def recordVnsStuck (s : Statistics) : Statistics :=
  { s with vnsStuck := s.vnsStuck + 1 }

/-- A counter as a 64-bit word holds it. -/
def asWord (n : Nat) : Nat :=
  n % 0x1_0000_0000_0000_0000

/-- The counters as 64-bit words hold them. -/
def asWords (s : Statistics) : Statistics where
  trialsCompleted := asWord s.trialsCompleted
  bestImprovements := asWord s.bestImprovements
  localSearchCalls := asWord s.localSearchCalls
  localSearchRounds := asWord s.localSearchRounds
  nodeSwaps := asWord s.nodeSwaps
  vnsRounds := asWord s.vnsRounds
  vnsImprovements := asWord s.vnsImprovements
  vnsStuck := asWord s.vnsStuck

/-- Rounds per local search on average; zero without a local search. -/
def averageRounds (s : Statistics) : Float :=
  if s.localSearchCalls = 0 then 0
  else Float.ofNat s.localSearchRounds / Float.ofNat s.localSearchCalls

end Statistics

end KCut
