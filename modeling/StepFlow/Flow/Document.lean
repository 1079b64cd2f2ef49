/-
  StepFlow.Flow.Document — flow documents: the texts of flows.

  A text is refused as no JSON, with a line and a column; as JSON that is no object; or as an
  object that is no flow, with its problems. The one other way to fail is a whole number too
  long to read, which leaves as a fault of its own.
-/

import StepFlow.Flow.Decode
import StepFlow.Flow.Encode
import StepFlow.Json.Read
import StepFlow.Json.Write

namespace StepFlow

inductive DocumentFault where
  | notJson (e : Json.SyntaxError)
  | notObject
  | invalid (problems : List Problem)
  | number (t : Trouble)

namespace DocumentFault

def message : DocumentFault → String
  | .notJson e => s!"Flow document is not valid JSON: {e.cause.message}"
  | .notObject => "Flow document must be a JSON object"
  | .invalid problems => s!"Invalid flow document: {problems.length} error(s)"
  | .number t => t.message

def className : DocumentFault → String
  | .number t => t.className
  | _ => "FlowDocumentError"

end DocumentFault

namespace Flow

def ofJson (label : Nat) (j : Json) : Except DocumentFault Flow :=
  match Decode.flow .document label [] j with
  | .good f => .ok f
  | .bad problems => .error (.invalid problems)

/-- A text as JSON. -/
def readJson (text : String) : Except DocumentFault Json :=
  match Json.read text with
  | .ok j => .ok j
  | .error (.malformed e) => .error (.notJson e)
  | .error (.tooLong digits) => .error (.number (.value (.tooLongToRead digits)))

/-- The flow that a text is. -/
def read (label : Nat) (text : String) : Except DocumentFault Flow := do
  match ← readJson text with
  | .obj members => ofJson label (.obj members)
  | _ => throw .notObject

def write (l : Json.Layout) (f : Flow) : String := f.json.write l

/-- The blanks of a level in an indented document. -/
def indent : Nat := 2

/-- How many labels the NaNs of a flow can take. -/
def labels (f : Flow) : Nat := 2 * f.nodes.length

end Flow

end StepFlow
