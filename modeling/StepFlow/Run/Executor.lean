/-
  StepFlow.Run.Executor — the executor: it walks a flow from its start node, one node at a
  time, and holds a lock while it does.

  A run is suspended at two places only: while a call is out (`Stage.calling`) and in the
  pause between two nodes (`Stage.pausing`). Between them it goes on by itself, a node at a
  time (`Stage.arriving`). Requests that come while the lock is held are turned down.
  - Every entry is kept, then published on the channel `logs`; the channel `active` tells the
    node being executed, and nothing after the run.
  - A run binds its id for its records, and a handler the id of its node as well. The block
    that binds an id restores the one before when the run leaves it (`Walk.left`).
  - A fault of a node ends the run as aborted, whatever it is. Only the pause can raise, and
    then the lock is released and nothing is active all the same.
-/

import StepFlow.Channel.Board
import StepFlow.Flow.Route
import StepFlow.Run.Handler

namespace StepFlow.Run

open Script (Memory)

/-- Numbers, unless they are set to something else; then what asks for them fails. -/
structure Settings where
  /-- Milliseconds between two nodes. -/
  pacing : Value
  /-- The most nodes that a run executes. -/
  maxSteps : Value

/-- The channels of an executor. -/
inductive Line where
  | logs | active
  deriving DecidableEq, Repr

def Line.name : Line → String
  | .logs => "execution_logs"
  | .active => "active_node"

/-- What is published: entries on `logs`, node ids on `active`. -/
inductive Signal where
  | entry (e : Entry)
  | node (id : Option String)
  deriving DecidableEq, Repr

structure Executor where
  settings : Settings
  board : Channel.Board Line Signal
  /-- What the subscribed callbacks do. -/
  program : String → List (Channel.Action Line Signal)
  locked : Bool
  logger : Log.Logger
  heap : Heap

namespace Executor

def create (settings : Settings) (logger : Log.Logger) (heap : Heap) : Executor :=
  { settings
    board := .empty [(.active, .node none)]
    program := fun _ => []
    locked := false
    logger
    heap }

def rules (x : Executor) : Channel.Rules Line Signal := ⟨x.program, fun a b => a == b⟩

def activeNode (x : Executor) : Option String :=
  match x.board.value? .active with
  | some (.node id) => id
  | _ => none

end Executor

/-- A run that was accepted. -/
structure Walk where
  runId : String
  flow : Flow
  /-- What records of the run are stamped with now. -/
  scope : Log.Scope
  env : Env
  entries : List Entry
  steps : Nat
  /-- What the blocks restore that the run is in, the innermost one first. -/
  blocks : List Log.Binding

inductive Stage where
  | arriving (n : Node)
  | calling (n : Node) (call : Http.Call)
  | pausing (next : Node) (seconds : Float)

inductive Ended where
  | finished (r : Result)
  | raised (c : Crash)

inductive Progress where
  | going (s : Stage)
  | ended (e : Ended)

abbrev Walking := StateT Walk (StateM Executor)

/-! ## Blocks -/

def Walk.entering (w : Walk) (b : Log.Binding) : Walk :=
  { w with scope := w.scope.bind b, blocks := w.scope.before b :: w.blocks }

/-- Outside the innermost block. -/
def Walk.left (w : Walk) : Walk :=
  { w with scope := w.blocks.head?.elim w.scope w.scope.bind, blocks := w.blocks.tail }

def enter (b : Log.Binding) : Walking Unit := modify (·.entering b)

def leave : Walking Unit := modify (·.left)

/-! ## Telling -/

def log (scope : Log.Scope) (n : Log.Notice) : StateM Executor Unit :=
  modify fun x => { x with logger := x.logger.write scope n }

def failureNotice (line : Line) : Log.Notice :=
  ⟨.error, "Channel subscriber failed", [("channel", .str line.name)], true⟩

/-- Change the board, and log the failures of callbacks that come of it. -/
def onBoard (scope : Log.Scope) (f : Executor → Channel.Board Line Signal) : StateM Executor Unit :=
  modify fun x =>
    let board := f x
    let failures := board.failures.drop x.board.failures.length
    { x with
      board
      logger := failures.foldl (fun l line => l.write scope (failureNotice line)) x.logger }

def publish (scope : Log.Scope) (line : Line) (s : Signal) : StateM Executor Unit :=
  onBoard scope fun x => ((Channel.publish x.rules line s).run x.board).2

def setActive (scope : Log.Scope) (id : Option String) : StateM Executor Unit :=
  onBoard scope fun x => ((Channel.perform x.rules (.set .active (.node id))).run.run x.board).2

def tell (scope : Log.Scope) (e : Entry) : Walking Unit := do
  modify fun w => { w with entries := w.entries ++ [e] }
  publish scope .logs (.entry e)

def tellSystem (message : String) (status : Status) : Walking Unit := do
  tell (← get).scope ⟨systemId, systemLabel, message, status⟩

def tellNode (scope : Log.Scope) (n : Node) (message : String) (status : Status) : Walking Unit :=
  tell scope ⟨n.id, n.data.label, message, status⟩

/-- The effects of a handler, in their order. -/
def perform (n : Node) : List Effect → Walking Unit
  | [] => pure ()
  | .emit message status :: rest => do
    tellNode (← get).scope n message status
    perform n rest
  | .log notice :: rest => do
    log (← get).scope notice
    perform n rest

/-! ## The ends of a run -/

/-- Leave the block of the run, and release the lock. -/
def release : Walking Unit := do
  leave
  modifyThe Executor fun x => { x with locked := false }

def finish (outcome : Outcome) : Walking Progress := do
  setActive (← get).scope none
  let w ← get
  log w.scope ⟨.info, "Run finished",
    [("flow_id", .str w.flow.id), ("outcome", .str outcome.text), ("steps", .int w.steps)], false⟩
  release
  pure (.ended (.finished ⟨w.runId, outcome, w.steps, w.entries⟩))

def raise (c : Crash) : Walking Progress := do
  setActive (← get).scope none
  release
  pure (.ended (.raised c))

def faultNotice (n : Node) (f : NodeFault) : Log.Notice :=
  match f.crash? with
  | none => ⟨.error, "Node failed", [(Log.nodeField, .str n.id), ("error", .str f.text)], false⟩
  | some _ => ⟨.error, "Node raised unexpectedly", [(Log.nodeField, .str n.id)], true⟩

def fail (n : Node) (f : NodeFault) : Walking Progress := do
  let scope := (← get).scope
  log scope (faultNotice n f)
  tellNode scope n s!"Error: {f.message}" .error
  finish .aborted

/-! ## From node to node -/

namespace Settings

/-- Whether a run that has made that many steps may make no other one. -/
def exhausted (s : Settings) (h : Heap) (steps : Nat) : Except Trouble Bool :=
  h.order .ge (.int steps) s.maxSteps

/-- The fault of a run that may not. -/
def budgetFault (s : Settings) (h : Heap) : NodeFault :=
  match h.display s.maxSteps with
  | .ok shown => .budget shown
  | .error t => .trouble t

/-- A thousandth of a number. -/
def seconds : Scalar → Except Trouble Float
  | .float x => pure (x / 1000.0)
  | s => match s.toInt? with
    | some n => match Binary64.quotient? n 1000 with
      | some x => pure x
      | none => throw (.overflow .quotient)
    | none => throw (.type .operands)

/-- How long to pause between two nodes, if at all. -/
def pause? (s : Settings) (h : Heap) : Except Trouble (Option Float) := do
  if ← h.order .gt s.pacing (.int 0) then
    match s.pacing with
    | .scalar p => some <$> seconds p
    | .ref _ => throw (.type .operands)
  else pure none

end Settings

/-- Pause before the next node. -/
def pause (next : Node) : Walking Progress := do
  let x ← getThe Executor
  match x.settings.pause? x.heap with
  | .ok none => pure (.going (.arriving next))
  | .ok (some seconds) => pure (.going (.pausing next seconds))
  | .error t => raise ⟨t.className, t.message⟩

/-- What is told when no connection leads on. -/
def stopMessage : Option String → String
  | some port => "No connection for port \"" ++ port ++ "\""
  | none => "Flow stopped (no more connections)"

def missingMessage (c : Connection) : String :=
  "Connection \"" ++ c.id ++ "\" targets missing node \"" ++ c.target ++ "\""

/-- Leave a node that has done its work. -/
def depart (n : Node) (t : Transition) : Walking Progress := do
  let w ← get
  if t.terminal then
    tellNode w.scope n "Flow finished successfully" .success
    finish .success
  else match w.flow.next? n.id t.port with
    | none => do
      tellNode w.scope n (stopMessage t.port) .warning
      finish .stopped
    | some c => match w.flow.node? c.target with
      | none => do
        tellSystem (missingMessage c) .warning
        finish .stopped
      | some next => pause next

/-- Where a run goes when its handler has come that far. A handler that is over leaves its block. -/
def afterPart (n : Node) : Reached → Walking Progress
  | .done t => do
    leave
    depart n t
  | .failed f => do
    leave
    fail n f
  | .calling call => pure (.going (.calling n call))

/-- Run a part of a handler, and go where it leads. -/
def handle (n : Node) (part : Memory → Handled) : Walking Progress := do
  let w ← get
  let h := part ⟨w.env, (← getThe Executor).heap⟩
  set { w with env := h.memory.env }
  modifyThe Executor fun x => { x with heap := h.memory.heap }
  perform n h.effects
  afterPart n h.reached

def execute (n : Node) : Walking Progress := do
  modify fun w => { w with steps := w.steps + 1 }
  let scope := (← get).scope
  setActive scope (some n.id)
  tellNode scope n s!"Executing {n.type.text}" .info
  log scope ⟨.info, "Executing node", [(Log.nodeField, .str n.id), ("node_type", .str n.type.text)], false⟩
  enter (.node n.id)
  handle n (Handler.run n)

/-- Arrive at a node: execute it, if the budget allows another step. -/
def arrive (n : Node) : Walking Progress := do
  let x ← getThe Executor
  match x.settings.exhausted x.heap (← get).steps with
  | .error t => fail n (.trouble t)
  | .ok true => fail n (x.settings.budgetFault x.heap)
  | .ok false => execute n

/-! ## Processes -/

structure Process where
  walk : Walk
  stage : Stage

/-- What happens to a run from outside, and its own next step. -/
inductive Event where
  | step
  | answer (a : Http.Answer)
  /-- The pause is over, or has raised. -/
  | wake (r : Except Crash Unit)

/-- A run goes on, or has ended. -/
abbrev Next := Process ⊕ Ended

def ofProgress (r : Progress × Walk) : Next :=
  match r.1 with
  | .going s => .inl ⟨r.2, s⟩
  | .ended e => .inr e

def Process.walking (p : Process) (act : Walking Progress) : StateM Executor Next :=
  ofProgress <$> act.run p.walk

/-- What an event makes of a run; a run that does not wait for it goes on waiting. -/
def Process.turn (p : Process) (e : Event) : Walking Progress :=
  match p.stage, e with
  | .arriving n, .step => arrive n
  | .calling n call, .answer a => handle n (Handler.resume n call a)
  | .pausing n _, .wake (.ok ()) => pure (.going (.arriving n))
  | .pausing _ _, .wake (.error c) => raise c
  | s, _ => pure (.going s)

def Process.next (p : Process) (e : Event) : StateM Executor Next := p.walking (p.turn e)

/-- The id of a run: that of its flow, with a tag of its own. -/
def runIdOf (flowId tag : String) : String := flowId ++ ":" ++ tag

/-- The walk of an accepted run, in the block that binds its id. -/
def Walk.initial (caller : Log.Scope) (tag : String) (flow : Flow) (seed : Env) : Walk :=
  let id := Log.Binding.correlation (runIdOf flow.id tag)
  ⟨runIdOf flow.id tag, flow, caller.bind id, seed, [], 0, [caller.before id]⟩

/-- The first steps of an accepted run, up to its start node. -/
def begin : Walking Progress := do
  let w ← get
  match w.flow.startNode? with
  | none => do
    tellSystem "No Start node found in flow" .error
    finish .aborted
  | some n => do
    log w.scope ⟨.info, "Starting flow run",
      [("flow_id", .str w.flow.id), ("node_count", .int w.flow.nodes.length)], false⟩
    tellSystem "Starting execution" .info
    let x ← getThe Executor
    let m := contextOf w.env x.heap
    modify fun w => { w with env := m.env }
    set { x with heap := m.heap }
    pure (.going (.arriving n))

/-- Ask for a run of a flow with seed variables, in the scope of the caller. -/
def request (caller : Log.Scope) (tag : String) (flow : Flow) (seed : Env) : StateM Executor Next := do
  if (← get).locked then
    log caller ⟨.warning, "Run rejected, another run is in progress", [("flow_id", .str flow.id)], false⟩
    pure (.inr (.finished .rejected))
  else
    modify fun x => { x with locked := true }
    ofProgress <$> begin.run (.initial caller tag flow seed)

end StepFlow.Run
