/-
  StepFlow.Flow.Diagnose — what is wrong with a flow as a graph.

  The diagnostics of the whole flow come first, then those of each node in order. They are
  advice; only an error keeps a flow from a strict run.
-/

import StepFlow.Flow.Basic

namespace StepFlow

inductive Severity where
  | error | warning
  deriving DecidableEq, Repr

def Severity.text : Severity → String
  | .error => "error"
  | .warning => "warning"

structure Diagnostic where
  message : String
  severity : Severity
  nodeId : Option String
  deriving DecidableEq, Repr

namespace Flow

def startCount (f : Flow) : Nat := f.nodes.countP (·.type == .start)

def startDiagnostics (f : Flow) : List Diagnostic :=
  if f.startCount = 0 then [⟨"Flow must have a Start node.", .error, none⟩]
  else if 1 < f.startCount then [⟨"Flow can only have one Start node.", .error, none⟩]
  else []

def endDiagnostics (f : Flow) : List Diagnostic :=
  if f.nodes.any (·.type == .finish) then []
  else [⟨"Flow should have at least one End node.", .warning, none⟩]

def isTarget (f : Flow) (id : String) : Bool := f.connections.any (·.target == id)

def isSource (f : Flow) (id : String) : Bool := f.connections.any (·.source == id)

def nodeDiagnostics (f : Flow) (n : Node) : List Diagnostic :=
  (if n.type != .start && !f.isTarget n.id then
    [⟨"Node \"" ++ n.data.label ++ "\" is not reachable.", .warning, some n.id⟩] else [])
  ++ (if n.type != .finish && !f.isSource n.id then
    [⟨"Node \"" ++ n.data.label ++ "\" has no output.", .warning, some n.id⟩] else [])

def diagnose (f : Flow) : List Diagnostic :=
  f.startDiagnostics ++ f.endDiagnostics ++ f.nodes.flatMap f.nodeDiagnostics

end Flow

def hasErrors (ds : List Diagnostic) : Bool := ds.any (·.severity == .error)

end StepFlow
