/-!
# KCut.Failure

Failures that are reported to the caller with a text.
-/

namespace KCut

/-- Why an operation was refused. -/
inductive Failure
  | config (text : String)
  | graph (text : String)
  /-- The workers could not be started. -/
  | threadPool (text : String)
  /-- The solver is in no state for the operation. -/
  | invalidState (text : String)
deriving Repr, DecidableEq, Inhabited

def Failure.message : Failure → String
  | config text => "Configuration error: " ++ text
  | graph text => "Graph error: " ++ text
  | threadPool text => "Thread pool error: " ++ text
  | invalidState text => "Invalid state: " ++ text

end KCut
