/-
  StepFlow.Run.Handler — what a node does: nothing, run its script, decide on a port, call a
  web service, or end the run.

  A handler works on the variables and the heap, and tells effects in their order: messages of
  the node, and notices for the process log. A call suspends it; `resume` goes on with the
  answer. What it fails with is an error of the flow, or a fault that nobody expected.
  - Scripts cannot bind `responses`, the object that answers are stored in by node id.
-/

import StepFlow.Flow.Basic
import StepFlow.Http.Call
import StepFlow.Run.Entry
import StepFlow.Script.Exec

namespace StepFlow.Run

open Script (Memory)

/-- What comes after a node: the end, or a connection, tagged with the port if there is one. -/
structure Transition where
  port : Option String
  terminal : Bool
  deriving DecidableEq, Repr

def Transition.follow : Transition := ⟨none, false⟩

inductive NodeFault where
  | script (f : Script.Fault)
  | http (f : Http.Fault)
  | budget (shown : String)
  | trouble (t : Trouble)

namespace NodeFault

/-- An error of the flow, or the crash that it is otherwise. -/
def crash? : NodeFault → Option Crash
  | .script (.trouble t) | .trouble t => some ⟨t.className, t.message⟩
  | .http (.crash c) => some c
  | .script (.bad _) | .script (.run _) | .http _ | .budget _ => none

def text : NodeFault → String
  | .script f => f.message
  | .http f => f.message
  | .budget shown => s!"Step budget of {shown} exceeded; the flow may contain a cycle"
  | .trouble t => t.message

/-- What is told of the fault: its text, or its class if that is empty. -/
def message (f : NodeFault) : String :=
  match f.crash? with
  | some c => c.message
  | none => f.text

end NodeFault

inductive Effect where
  | emit (message : String) (status : Status)
  | log (n : Log.Notice)

/-- How far a handler comes. -/
inductive Reached where
  | done (t : Transition)
  | failed (f : NodeFault)
  | calling (c : Http.Call)

structure Handled where
  effects : List Effect
  memory : Memory
  reached : Reached

def responsesName : String := "responses"

def readonlyNames : List String := [responsesName]

/-- Variables of a run: a copy of the caller's, with an empty object for the responses. -/
def contextOf (seed : Env) (h : Heap) : Memory :=
  let r := h.alloc (.object [])
  ⟨seed.set responsesName r.1, r.2⟩

/-- A text that holds more than blanks. -/
def nonblank? (s : Option String) : Option String :=
  s.filter fun s => s.toList.any fun c => !Text.isBlank c

def truePort : String := "true"

def falsePort : String := "false"

def portOf (b : Bool) : String := if b then truePort else falsePort

def decided (m : Memory) (b : Bool) : Handled :=
  ⟨[.emit s!"Condition evaluated to: {portOf b}" .info], m, .done ⟨some (portOf b), false⟩⟩

/-- The call of a node. -/
def callOf (c : ApiConfig) : Http.Call :=
  { method := c.method.text
    url := c.url
    headers := Http.requestHeaders c.headers
    body := if c.method.sendsBody then c.body else none }

namespace Handler

def script (n : Node) (m : Memory) : Handled :=
  match nonblank? n.data.script with
  | none => ⟨[], m, .done .follow⟩
  | some text =>
    match Script.execute text readonlyNames m with
    | (.ok (), m) => ⟨[], m, .done .follow⟩
    | (.error f, m) => ⟨[], m, .failed (.script f)⟩

def decision (n : Node) (m : Memory) : Handled :=
  match nonblank? n.data.condition with
  | none => decided m false
  | some text =>
    match (Script.evaluate text m.env).run.run m.heap with
    | (.ok v, h) => decided { m with heap := h } (h.truth v)
    | (.error f, h) => ⟨[], { m with heap := h }, .failed (.script f)⟩

def api (n : Node) (m : Memory) : Handled :=
  match n.data.apiConfig with
  | none => ⟨[], m, .done .follow⟩
  | some c =>
    let call := callOf c
    let fields := [(Log.nodeField, .str n.id), ("method", .str call.method), ("url", .str call.url)]
    ⟨[.emit s!"Calling API: {call.method} {call.url}" .info, .log ⟨.info, "Calling API", fields, false⟩],
      m, .calling call⟩

def run (n : Node) (m : Memory) : Handled :=
  match n.type with
  | .start | .task => ⟨[], m, .done .follow⟩
  | .script => script n m
  | .decision => decision n m
  | .api => api n m
  | .finish => ⟨[], m, .done ⟨none, true⟩⟩

/-- Keep an answer under the id of its node. -/
def store (m : Memory) (id : String) (v : Value) : Memory :=
  match m.env.get? responsesName with
  | some (.ref r) =>
    match m.heap.cell r with
    | .object es => { m with heap := m.heap.write r (.object (assignKey es (.str id) v)) }
    | .list _ => m
  | _ => m

/-- Go on with the answer to a call. -/
def resume (n : Node) (call : Http.Call) (a : Http.Answer) (m : Memory) : Handled :=
  match Http.settle call a with
  | (.ok j, notices) =>
    let r := m.heap.ofJson j
    ⟨notices.map .log ++ [.emit "API Response received" .success],
      store { m with heap := r.2 } n.id r.1, .done .follow⟩
  | (.error f, notices) => ⟨notices.map .log, m, .failed (.http f)⟩

end Handler

end StepFlow.Run
