/-
  StepFlow.Service.Registry — the types of nodes and the handlers that they have, by name.
-/

import StepFlow.Flow.Basic
import StepFlow.Log.Basic

namespace StepFlow.Service

def handlerName : NodeType → String
  | .start | .task => "passthrough_handler"
  | .script => "script_handler"
  | .decision => "decision_handler"
  | .api => "api_handler"
  | .finish => "end_handler"

/-- The handler of the type of that name. -/
def findHandler (type : String) : Except Crash String :=
  match NodeType.ofText? type with
  | some t => .ok (handlerName t)
  | none => .error ⟨"ValueError", s!"Unknown node type: {type}"⟩

/-- The names of all types, in alphabetical order. -/
def typeNames : List String := (NodeType.all.map (·.text)).mergeSort fun a b => decide (a ≤ b)

end StepFlow.Service
