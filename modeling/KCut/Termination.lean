import KCut.Text.Record

/-!
# KCut.Termination

Conditions that ask a run to stop.

Design points:

* A condition is polled, and a poll may change it: a predicate counts how often
  it was asked. `poll` therefore gives the answer and the condition afterwards.
* `either` asks its second part only if the first one has not stopped the run.
* The clock of a run stands still: a time limit of zero has been reached at
  once, every other limit lies ahead.
-/

namespace KCut

/-- A condition under which a run stops. -/
inductive Termination
  | never
  /-- The run goes on at the `i`-th question iff `running i`, counted from zero;
  `calls` is the number of questions asked so far. -/
  | predicate (running : Nat → Bool) (calls : Nat)
  /-- The run stops while the flag is raised. -/
  | flag (raised : Bool)
  /-- The run stops when `limit` milliseconds have passed. -/
  | time (limit : Nat)
  /-- The run stops if one of two conditions asks for it. -/
  | either (first second : Termination)

namespace Termination

/-- A predicate that lets the run go on at its first `n` questions. -/
def afterPolls (n : Nat) : Termination :=
  .predicate (fun i => i < n) 0

/-- Whether the run has to stop, and the condition after the question. -/
def poll : Termination → Bool × Termination
  | never => (false, never)
  | predicate running calls => (!running calls, predicate running (calls + 1))
  | flag raised => (raised, flag raised)
  | time limit => (limit == 0, time limit)
  | either first second =>
      match first.poll with
      | (true, first) => (true, either first second)
      | (false, first) =>
          let (stop, second) := second.poll
          (stop, either first second)

/-- How often each predicate was asked, from left to right. -/
def calls : Termination → List Nat
  | predicate _ calls => [calls]
  | either first second => first.calls ++ second.calls
  | _ => []

def flagCount : Termination → Nat
  | flag _ => 1
  | either first second => first.flagCount + second.flagCount
  | _ => 0

/-- Sets flag `i`, counted from left to right. -/
def setFlag (i : Nat) (raised : Bool) : Termination → Termination
  | flag old => flag (if i = 0 then raised else old)
  | either first second =>
      if i < first.flagCount then either (first.setFlag i raised) second
      else either first (second.setFlag (i - first.flagCount) raised)
  | other => other

/-- The limit of a time condition, in milliseconds. -/
def limit? : Termination → Option Nat
  | time limit => some limit
  | _ => none

/-- A condition in front of which a time limit is asked, if there is one. -/
def withLimit (limit : Option Nat) (t : Termination) : Termination :=
  match limit with
  | some limit => either (time limit) t
  | none => t

def describe : Termination → String
  | never => "NeverTerminate"
  | predicate _ _ => Text.opaqueRecord "FnTermination"
  | flag raised => Text.record "ExternalTermination" [("flag", Text.truth raised)]
  | time limit => Text.record "TimeTermination" [("limit", s!"{limit}ms")]
  | either first second =>
      Text.tagged "OrTermination" [Text.tagged "" [first.describe, second.describe]]

@[simp] theorem poll_never : never.poll = (false, never) := rfl

@[simp] theorem poll_predicate (running : Nat → Bool) (calls : Nat) :
    (predicate running calls).poll = (!running calls, predicate running (calls + 1)) := rfl

@[simp] theorem poll_flag (raised : Bool) : (flag raised).poll = (raised, flag raised) := rfl

@[simp] theorem poll_time (limit : Nat) : (time limit).poll = (limit == 0, time limit) := rfl

theorem poll_either_of_stopped {first first' : Termination} (second : Termination)
    (h : first.poll = (true, first')) :
    (either first second).poll = (true, either first' second) := by
  simp [poll, h]

theorem poll_either_of_running {first first' : Termination} (second : Termination)
    (h : first.poll = (false, first')) :
    (either first second).poll = (second.poll.1, either first' second.poll.2) := by
  simp [poll, h]

end Termination

end KCut
