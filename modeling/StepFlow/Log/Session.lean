/-
  StepFlow.Log.Session — logging as code does it: a log with a threshold, and a scope that
  blocks bind and restore.

  A block that binds an id restores the one before, however it ends. Setting the correlation
  id binds it for good, or up to the end of the block around. The blocks are written for any
  computation that has the session as state and may crash.
-/

import StepFlow.Log.Basic
import StepFlow.Value.Display
import StepFlow.Text.Case

namespace StepFlow.Log

structure Session where
  logger : Logger
  scope : Scope

/-- The level where none is asked for. -/
def defaultLevel : String := "INFO"

/-- The threshold that a value asks for: a number, or the name of a level. -/
def thresholdOf (v : Value) (h : Heap) : Except Crash Int :=
  match v with
  | .scalar (.int n) => .ok n
  | .scalar (.bool b) => .ok (if b then 1 else 0)
  | .scalar (.str s) => match Level.weights.lookup s with
    | some w => .ok w
    | none => .error ⟨"ValueError", s!"Unknown level: {Text.quoted s}"⟩
  | v => match h.display v with
    | .ok shown => .error ⟨"TypeError", s!"Level not an integer or a valid string: {shown}"⟩
    | .error t => .error ⟨t.className, t.message⟩

/-- The threshold of a named level in any case. -/
def thresholdNamed (name : String) : Except Crash Int :=
  thresholdOf (.str (Text.upperText name)) .empty

/-- The log of a service, with a first record. -/
def Session.start (service : String) (threshold : Int) : Session :=
  let logger : Logger := ⟨threshold, []⟩
  ⟨logger.write .none ⟨.info, s!"{service} logging configured", [("service", .str service)], false⟩, .none⟩

variable {m : Type → Type} [Monad m] [MonadStateOf Session m] [MonadExceptOf Crash m] {α : Type}

def correlation : m String := return (← getThe Session).scope.correlation

def setCorrelation (id : String) : m Unit :=
  modifyThe Session fun s => { s with scope := { s.scope with correlation := id } }

def setNode (id : String) : m Unit :=
  modifyThe Session fun s => { s with scope := { s.scope with node := id } }

/-- Do something, and then something else however it ends. -/
def ensuring (after : m Unit) (act : m α) : m α := do
  let a ← tryCatchThe Crash act fun e => do
    after
    throwThe Crash e
  after
  pure a

def bindCorrelation (id : String) (act : m α) : m α := do
  let before := (← getThe Session).scope.correlation
  setCorrelation id
  ensuring (setCorrelation before) act

def bindNode (id : String) (act : m α) : m α := do
  let before := (← getThe Session).scope.node
  setNode id
  ensuring (setNode before) act

/-- Record a notice. A field that would replace a property is an error, unless the notice is
    below the threshold. -/
def record (n : Notice) : m Unit := do
  let s ← getThe Session
  if s.logger.accepts n.level then
    match n.fields.find? fun f => reserved.contains f.1 with
    | some f =>
      throwThe Crash ⟨"KeyError", Text.quoted s!"Attempt to overwrite {Text.quoted f.1} in LogRecord"⟩
    | none => set { s with logger := s.logger.write s.scope n }

def fail (text : String) : m α := throwThe Crash ⟨"RuntimeError", text⟩

/-- Do something, and go on whatever comes of it. -/
def attempt (act : m Unit) : m Unit := tryCatchThe Crash act fun _ => pure ()

end StepFlow.Log
