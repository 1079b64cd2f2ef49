/-
  StepFlow.Log.Basic — the process log: records of what a service does, stamped with the
  request or run and the node that they belong to.

  A record below the log's threshold is not written. Every record carries the correlation id
  of its scope. It carries the node id that it names itself, if that is not empty, and the
  one of its scope otherwise.
  - Further fields keep the order they are given in; those whose name starts with an
    underscore are left out. A field may replace the shown level or logger, but not the
    properties that every record has (`reserved`).
-/

import StepFlow.Json.Basic
import StepFlow.Text.Quoted

namespace StepFlow

/-- An error of a class of its own, known by its name and its text. -/
structure Crash where
  className : String
  text : String
  deriving DecidableEq, Repr

/-- The text, or the class of an error without one. -/
def Crash.message (c : Crash) : String := if c.text == "" then c.className else c.text

namespace Log

inductive Level where
  | debug | info | warning | error | critical
  deriving DecidableEq, Repr

namespace Level

def text : Level → String
  | .debug => "DEBUG"
  | .info => "INFO"
  | .warning => "WARNING"
  | .error => "ERROR"
  | .critical => "CRITICAL"

def weight : Level → Int
  | .debug => 10
  | .info => 20
  | .warning => 30
  | .error => 40
  | .critical => 50

/-- The names of thresholds. -/
def weights : List (String × Int) :=
  [("CRITICAL", 50), ("FATAL", 50), ("ERROR", 40), ("WARN", 30), ("WARNING", 30), ("INFO", 20),
   ("DEBUG", 10), ("NOTSET", 0)]

end Level

/-- What records belong to: a request or a run, and the node being executed. -/
structure Scope where
  correlation : String
  node : String
  deriving DecidableEq, Repr

def Scope.none : Scope := ⟨"", ""⟩

/-- An id for a part of a scope. -/
inductive Binding where
  | correlation (id : String)
  | node (id : String)
  deriving DecidableEq, Repr

namespace Scope

def bind (s : Scope) : Binding → Scope
  | .correlation id => { s with correlation := id }
  | .node id => { s with node := id }

/-- What restores the id that a binding replaces. -/
def before (s : Scope) : Binding → Binding
  | .correlation _ => .correlation s.correlation
  | .node _ => .node s.node

theorem bind_before (s : Scope) (b : Binding) : (s.bind b).bind (s.before b) = s := by cases b <;> rfl

end Scope

/-- What is to be recorded. -/
structure Notice where
  level : Level
  message : String
  fields : List (String × Json)
  /-- Whether an error is attached. -/
  traceback : Bool

structure Record where
  level : Level
  correlation : String
  node : Json
  message : String
  fields : List (String × Json)
  traceback : Bool

structure Logger where
  threshold : Int
  records : List Record

/-- Whether a document counts as something. -/
def holds : Json → Bool
  | .null => false
  | .bool b => b
  | .int n => n != 0
  | .float x => x != 0.0
  | .str s => s != ""
  | .arr js => !js.isEmpty
  | .obj ms => !ms.isEmpty

def correlationField : String := "correlation_id"

def nodeField : String := "node_id"

/-- The node that a notice names, or else the one of the scope. -/
def Notice.node (n : Notice) (scope : Scope) : Json :=
  match Json.member? n.fields nodeField with
  | some j => if holds j then j else .str scope.node
  | none => .str scope.node

/-- A field that is shown as one of its own. -/
def isFurther (name : String) : Bool :=
  name != correlationField && name != nodeField && !name.startsWith "_"

def Notice.record (n : Notice) (scope : Scope) : Record :=
  { level := n.level
    correlation := scope.correlation
    node := n.node scope
    message := n.message
    fields := n.fields.filter fun f => isFurther f.1
    traceback := n.traceback }

namespace Logger

def accepts (l : Logger) (level : Level) : Bool := decide (l.threshold ≤ level.weight)

def write (l : Logger) (scope : Scope) (n : Notice) : Logger :=
  if l.accepts n.level then { l with records := l.records ++ [n.record scope] } else l

end Logger

/-- The properties of every record, which no field may replace. -/
def reserved : List String :=
  ["message", "asctime", "name", "msg", "args", "levelname", "levelno", "pathname", "filename",
   "module", "exc_info", "exc_text", "stack_info", "lineno", "funcName", "created", "msecs",
   "relativeCreated", "thread", "threadName", "processName", "process"]

/-- The record as it is shown. -/
def Record.members (r : Record) : List (String × Json) :=
  Json.merged ([("logger", .str "root"), ("level", .str r.level.text),
    (correlationField, .str r.correlation), (nodeField, r.node), ("message", .str r.message)] ++ r.fields)

end Log

end StepFlow
