/-
  StepFlow.Service.Reply — the replies of the service, and the documents in them.
-/

import StepFlow.Flow.Diagnose
import StepFlow.Flow.Problem
import StepFlow.Log.Basic
import StepFlow.Run.Entry

namespace StepFlow.Service

inductive ReplyBody where
  | json (j : Json)
  | text (s : String)

structure Reply where
  status : Nat
  body : ReplyBody
  correlation : Option String

/-- A status with what a reply says. -/
structure Answer where
  status : Nat
  body : ReplyBody

def document (status : Nat) (j : Json) : Answer := ⟨status, .json j⟩

def detail (status : Nat) (j : Json) : Answer := document status (.obj [("detail", j)])

def keyJson : Key → Json
  | .name s => .str s
  | .index n => .int n

def contextJson : Option (String × String) → List (String × Json)
  | some (name, value) => [("ctx", .obj [(name, .str value)])]
  | none => []

def problemJson (p : Problem) : Json :=
  .obj ([("type", .str p.kind.type), ("loc", .arr (p.path.map keyJson)), ("msg", .str p.kind.message),
    ("input", p.input)] ++ contextJson p.kind.context?)

def diagnosticJson (d : Diagnostic) : Json :=
  .obj [("message", .str d.message), ("severity", .str d.severity.text), ("node_id", Json.ofText? d.nodeId)]

def entryJson (e : Run.Entry) : Json :=
  .obj [("node_id", .str e.nodeId), ("node_label", .str e.label), ("message", .str e.message),
    ("status", .str e.status.text)]

def resultJson (r : Run.Result) : Json :=
  .obj [("run_id", .str r.runId), ("outcome", .str r.outcome.text), ("steps", .int r.steps),
    ("logs", .arr (r.entries.map entryJson))]

mutual

/-- Whether all numbers of a document are finite: no other document can be sent. -/
def isFinite : Json → Bool
  | .float x => x.isFinite
  | .arr js => areFinite js
  | .obj ms => membersFinite ms
  | _ => true

def areFinite : List Json → Bool
  | [] => true
  | j :: js => isFinite j && areFinite js

def membersFinite : List (String × Json) → Bool
  | [] => true
  | (_, j) :: ms => isFinite j && membersFinite ms

end

def ReplyBody.isFinite : ReplyBody → Bool
  | .json j => Service.isFinite j
  | .text _ => true

/-- What happens to a document that cannot be sent. -/
def notFinite : Crash := ⟨"ValueError", "Out of range float values are not JSON compliant"⟩

end StepFlow.Service
