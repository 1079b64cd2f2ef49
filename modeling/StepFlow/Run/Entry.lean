/-
  StepFlow.Run.Entry — what a run tells: the entries of its log, and its result.
-/

namespace StepFlow.Run

inductive Status where
  | info | success | warning | error
  deriving DecidableEq, Repr

def Status.text : Status → String
  | .info => "info"
  | .success => "success"
  | .warning => "warning"
  | .error => "error"

structure Entry where
  nodeId : String
  label : String
  message : String
  status : Status
  deriving DecidableEq, Repr

/-- The node id and the label of entries that belong to no node. -/
def systemId : String := "system"

def systemLabel : String := "System"

inductive Outcome where
  | success | stopped | aborted | rejected
  deriving DecidableEq, Repr

def Outcome.text : Outcome → String
  | .success => "success"
  | .stopped => "stopped"
  | .aborted => "aborted"
  | .rejected => "rejected"

structure Result where
  runId : String
  outcome : Outcome
  steps : Nat
  entries : List Entry
  deriving DecidableEq, Repr

/-- The result of a request that was turned down. -/
def Result.rejected : Result := ⟨"", .rejected, 0, []⟩

end StepFlow.Run
