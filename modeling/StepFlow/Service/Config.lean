/-
  StepFlow.Service.Config — the settings of an executor from environment variables.

  A variable that is set must be a number, even an empty one. They are read in turn: the
  pacing, unless it is given, the timeout, the budget; the first that is none is reported.
-/

import StepFlow.Run.Executor
import StepFlow.Script.Builtin

namespace StepFlow.Service

/-- The value of a variable that is set. -/
abbrev Environment := String → Option String

structure Config where
  settings : Run.Settings
  /-- Seconds that a call may take. -/
  timeout : Scalar

def defaultPacing : Float := 800.0

def defaultMaxSteps : Int := 1000

def defaultTimeout : Float := 30.0

def readFloat (s : String) : Except Trouble Scalar :=
  match Numeral.readFloat s.toList with
  | some x => pure (if x.isNaN then .nan documentNan else .float x)
  | none => throw (.value (.floatLiteral s))

def floatVariable (env : Environment) (name : String) (default : Float) : Except Trouble Scalar :=
  match env name with
  | some s => readFloat s
  | none => pure (.float default)

def intVariable (env : Environment) (name : String) (default : Int) : Except Trouble Int :=
  match env name with
  | some s => Builtin.readInt 10 s
  | none => pure default

def Config.read (env : Environment) (pacing : Option Value) : Except Trouble Config := do
  let pacing ← match pacing with
    | some p => pure p
    | none => Value.scalar <$> floatVariable env "FLOW_PACING_MS" defaultPacing
  let timeout ← floatVariable env "FLOW_HTTP_TIMEOUT_SECONDS" defaultTimeout
  let maxSteps ← intVariable env "FLOW_MAX_STEPS" defaultMaxSteps
  pure ⟨⟨pacing, .int maxSteps⟩, timeout⟩

end StepFlow.Service
