/-
  StepFlow.Run.Drive — runs from request to end, in surroundings that answer their calls and
  let their pauses pass.

  Calls are answered from a list, and pauses pass at once; both are kept in order. In a pause
  the executor may be asked for another run, which it turns down.
  - A run ends within the room that its budget gives (`Settings.room`): no node takes more
    than three steps.
-/

import StepFlow.Http.Scripted
import StepFlow.Run.Executor

namespace StepFlow.Run

/-- A request made in the pause of that number, counted from 1 in each run. -/
structure Attempt where
  pause : Nat
  tag : String
  flow : Flow

structure World where
  executor : Executor
  answers : List Http.Answer
  calls : List Http.Call
  pauses : List Float
  /-- The results of attempts, and whether the executor was running then. -/
  attempts : List (Result × Bool)

def World.start (x : Executor) (answers : List Http.Answer) : World := ⟨x, answers, [], [], []⟩

variable {α : Type}

def onExecutor (f : StateM Executor α) : StateM World α :=
  modifyGet fun w =>
    let r := f.run w.executor
    (r.1, { w with executor := r.2 })

/-- Have a call answered. -/
def transport (call : Http.Call) : StateM World Http.Answer :=
  modifyGet fun w =>
    let r := Http.nextAnswer w.answers
    (r.1, { w with answers := r.2, calls := w.calls ++ [call] })

/-- Let a pause pass, with the attempt that is due in it. -/
def rest (attempt : Option Attempt) (scope : Log.Scope) (seconds : Float) : StateM World Unit := do
  modify fun w => { w with pauses := w.pauses ++ [seconds] }
  match attempt with
  | none => pure ()
  | some a =>
    if (← get).pauses.length = a.pause then
      match ← onExecutor (request scope a.tag a.flow []) with
      | .inr (.finished r) =>
        modify fun w => { w with attempts := w.attempts ++ [(r, w.executor.locked)] }
      | _ => pure ()

/-- The event that a process waits for. -/
def await (attempt : Option Attempt) (p : Process) : StateM World Event := do
  match p.stage with
  | .arriving _ => pure .step
  | .calling _ call => return .answer (← transport call)
  | .pausing _ seconds => do
    rest attempt p.walk.scope seconds
    pure (.wake (.ok ()))

/-- Drive a run to its end; without room, it is left. -/
def drive (attempt : Option Attempt) : Nat → Next → StateM World (Option Ended)
  | _, .inr e => pure (some e)
  | 0, .inl _ => pure none
  | room + 1, .inl p => do
    let event ← await attempt p
    let next ← onExecutor (p.next event)
    drive attempt room next

-- powers of naturals are the same ones whatever else is imported
attribute [local instance (high)] instPowNat

/-- The steps where no budget bounds them. -/
def unbounded : Nat := 2 ^ (64 : Nat)

/-- More nodes than a run executes. -/
def Settings.room (s : Settings) : Nat :=
  match s.maxSteps with
  | .scalar m => match m.truncated with
    | .ok n => 3 * (n.toNat + 2)
    | .error _ => unbounded
  | .ref _ => unbounded

def runToEnd (attempt : Option Attempt) (caller : Log.Scope) (tag : String) (flow : Flow) (seed : Env) :
    StateM World (Option Ended) := do
  let next ← onExecutor (request caller tag flow seed)
  drive attempt ((← get).executor.settings.room) next

end StepFlow.Run
