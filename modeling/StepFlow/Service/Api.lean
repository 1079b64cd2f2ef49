/-
  StepFlow.Service.Api — the service: flows validated and run on request.

  Every request has a correlation id, its own or a new one, which its records carry and its
  reply repeats. A run logs under its own id. There is one executor for all requests, so a run
  requested during another one is turned down.
  - The parameters of a request are checked before its body, and all problems are reported.
  - In a strict run, a flow with errors is refused.
  - A path with slashes at its end leads to the one without them, and one line feed at the end
    of a path does not count.
  - The pages that present the service are there, and can be asked for their head as well; what
    they show is no part of this library.
  - A crash is logged and answered without details and without the id.
-/

import StepFlow.Flow.Decode
import StepFlow.Run.Drive
import StepFlow.Service.Config
import StepFlow.Service.Registry
import StepFlow.Service.Reply
import StepFlow.Service.Request

namespace StepFlow.Service

open Run (World)

def correlationHeader : String := "X-Correlation-ID"

/-! ## Addresses -/

/-- The pages that present the service to a reader or a program. -/
inductive Page where
  | schema | manual | signIn | reference
  deriving DecidableEq, Repr

namespace Page

def all : List Page := [.schema, .manual, .signIn, .reference]

def path : Page → String
  | .schema => "/openapi.json"
  | .manual => "/docs"
  | .signIn => "/docs/oauth2-redirect"
  | .reference => "/redoc"

end Page

inductive Endpoint where
  | root | health | nodeTypes | validate | run
  | page (p : Page)
  deriving DecidableEq, Repr

namespace Endpoint

def all : List Endpoint := Page.all.map .page ++ [.validate, .run, .root, .health, .nodeTypes]

def path : Endpoint → String
  | .root => "/"
  | .health => "/health"
  | .nodeTypes => "/node-types"
  | .validate => "/flows/validate"
  | .run => "/flows/run"
  | .page p => p.path

def methods : Endpoint → List String
  | .root | .health | .nodeTypes => ["GET"]
  | .validate | .run => ["POST"]
  | .page _ => ["GET", "HEAD"]

/-- The endpoint of a path, or of one that has a line feed at its end. -/
def find? (path : List Char) : Option Endpoint :=
  all.find? fun e => e.path.toList == path || e.path.toList ++ ['\n'] == path

end Endpoint

/-- The path with its slashes at the end taken away, or with one added. -/
def slashed (path : List Char) : List Char :=
  if path.getLast? == some '/' then (path.reverse.dropWhile (· == '/')).reverse else path ++ ['/']

inductive Destination where
  | endpoint (e : Endpoint)
  | redirect (path : List Char)
  | nowhere

def destination (path : List Char) : Destination :=
  match Endpoint.find? path with
  | some e => .endpoint e
  | none => if (Endpoint.find? (slashed path)).isSome then .redirect (slashed path) else .nowhere

/-! ## Reading requests -/

/-- What is wrong with a request. -/
inductive Refusal where
  | problems (ps : List Problem)
  | unreadable

def Refusal.answer : Refusal → Answer
  | .problems ps => detail 422 (.arr (ps.map problemJson))
  | .unreadable => detail 400 (.str "There was an error parsing the body")

def bodyPath : Path := [.name "body"]

def bodyRefusal : BodyFault → Refusal
  | .notJson e => .problems [⟨.notJson e.cause.message, bodyPath ++ [.index e.index], .obj []⟩]
  | .unreadable => .unreadable

/-- A body, which must be there. -/
def decodeContent {α : Type} (decode : Decode.Decoder α) : Content → Checked α
  | .none => Checked.fail .missingBody bodyPath .null
  | .json j => decode bodyPath j
  | .text s => decode bodyPath (.str s)

structure RunRequest where
  flow : Flow
  seed : List (String × Json)

def seed : Decode.Decoder (List (String × Json)) := fun path j =>
  match j with
  | .obj members => pure members
  | j => Checked.fail .objectType path j

/-- The label of a NaN in a request: flows of requests are not compared. -/
def requestNan : Nat := 1

def runRequest : Decode.Decoder RunRequest :=
  Decode.model .request "RunFlowRequest" fun path whole ms =>
    RunRequest.mk <$> Decode.required whole ms path "flow" (Decode.flow .request requestNan)
      <*> Decode.withDefault ms path "variables" [] seed

def trueWords : List String := ["1", "true", "t", "yes", "y", "on"]

def falseWords : List String := ["0", "false", "f", "no", "n", "off"]

/-- The flag `strict`, which is off when it is absent. -/
def strictness (r : Request) : Checked Bool :=
  match r.target.parameter? "strict" with
  | none => pure false
  | some s =>
    if trueWords.contains (Text.lowerText s) then pure true
    else if falseWords.contains (Text.lowerText s) then pure false
    else Checked.fail .boolParsing [.name "query", .name "strict"] (.str s)

/-- The body of a request, checked together with its parameters. -/
def readRequest {α β : Type} (r : Request) (parameters : Checked α) (decode : Decode.Decoder β) :
    Except Refusal (α × β) := do
  let content ← r.content.mapError bodyRefusal
  match Prod.mk <$> parameters <*> decodeContent decode content with
  | .good p => pure p
  | .bad ps => throw (.problems ps)

/-! ## Endpoints -/

/-- A crash that takes the place of a run. -/
abbrev Fault := Option Crash

/-- What a request needs from outside: an id for itself and a tag for a run. -/
structure Surroundings where
  requestId : String
  runTag : String
  fault : Fault

/-- A variable for each member of an object. -/
def bindVariables (h : Heap) (members : List (String × Json)) : Env × Heap :=
  members.foldl (fun (env, h) m =>
    let r := h.ofJson m.2
    (env.set m.1 r.1, r.2)) ([], h)

def bound (ms : List (String × Json)) : StateM World Env :=
  modifyGet fun w =>
    let r := bindVariables w.executor.heap ms
    (r.1, { w with executor := { w.executor with heap := r.2 } })

def busyMessage : String := "A flow is already running. Try again when it finishes."

def answerValidate (r : Request) : Answer :=
  match readRequest r (pure ()) (Decode.flow .request requestNan) with
  | .error e => e.answer
  | .ok (_, flow) =>
    let ds := flow.diagnose
    document 200 (.obj [("valid", .bool !(hasErrors ds)), ("diagnostics", .arr (ds.map diagnosticJson))])

def runAnswer : Option Run.Ended → Except Crash Answer
  | some (.finished r) =>
    if r.outcome = .rejected then .ok (detail 409 (.str busyMessage)) else .ok (document 200 (resultJson r))
  | some (.raised c) => .error c
  | none => .error ⟨"TimeoutError", ""⟩

def answerRun (around : Surroundings) (scope : Log.Scope) (r : Request) : StateM World (Except Crash Answer) :=
  match readRequest r (strictness r) runRequest with
  | .error e => pure (.ok e.answer)
  | .ok (strict, request) =>
    let ds := request.flow.diagnose
    if strict && hasErrors ds then pure (.ok (detail 422 (.arr (ds.map diagnosticJson))))
    else match around.fault with
      | some c => pure (.error c)
      | none => do
        let env ← bound request.seed
        return runAnswer (← Run.runToEnd none scope around.runTag request.flow env)

def answerEndpoint (around : Surroundings) (scope : Log.Scope) (r : Request) (e : Endpoint) :
    StateM World (Except Crash Answer) :=
  if !e.methods.contains r.method then pure (.ok (detail 405 (.str "Method Not Allowed")))
  else match e with
    | .page _ => pure (.ok ⟨200, .text ""⟩)
    | .root => pure (.ok (document 200 (.obj [("service", .str "flow-runtime"), ("status", .str "running")])))
    | .health => do
      let busy := (← get).executor.locked
      pure (.ok (document 200 (.obj [("status", .str "healthy"), ("busy", .bool busy)])))
    | .nodeTypes => pure (.ok (document 200 (.obj [("node_types", .arr (typeNames.map .str))])))
    | .validate => pure (.ok (answerValidate r))
    | .run => answerRun around scope r

/-! ## Replies -/

/-- An answer, or another address that leads to it. -/
inductive Outcome where
  | answer (a : Answer)
  | redirect (path : List Char)

/-- An answer that can be sent. -/
def sendable (a : Answer) : Except Crash Outcome :=
  if a.body.isFinite then .ok (.answer a) else .error notFinite

def answerRequest (around : Surroundings) (scope : Log.Scope) (r : Request) :
    StateM World (Except Crash Outcome) := do
  match destination r.target.path with
  | .endpoint e => return (← answerEndpoint around scope r e).bind sendable
  | .redirect path => pure (.ok (.redirect path))
  | .nowhere => pure (.ok (.answer (detail 404 (.str "Not Found"))))

def Outcome.status : Outcome → Nat
  | .answer a => a.status
  | .redirect _ => 307

def correlationOf (around : Surroundings) (r : Request) : String :=
  match r.header? correlationHeader with
  | some id => if id == "" then around.requestId else id
  | none => around.requestId

def routeOf (r : Request) : String := r.method ++ " " ++ r.target.shownPath

def completedNotice (r : Request) (status : Nat) : Log.Notice :=
  ⟨.info, "Request completed", [("route", .str (routeOf r)), ("status_code", .int status)], false⟩

def failedNotice (r : Request) : Log.Notice :=
  ⟨.error, "Request failed", [("route", .str (routeOf r))], true⟩

/-- Answer a request in its scope, and log how that went. -/
def traced (around : Surroundings) (r : Request) : StateM World (Option Outcome) := do
  let scope : Log.Scope := ⟨correlationOf around r, ""⟩
  match ← answerRequest around scope r with
  | .ok o => do
    Run.onExecutor (Run.log scope (completedNotice r o.status))
    pure (some o)
  | .error _ => do
    Run.onExecutor (Run.log scope (failedNotice r))
    pure none

def failedReply : Reply := ⟨500, .text "Internal Server Error", none⟩

/-- A reply to a request for the head alone has no body. -/
def bodyFor (r : Request) (b : ReplyBody) : ReplyBody := if r.method == "HEAD" then .text "" else b

def replyWith (around : Surroundings) (r : Request) : Option Outcome → Reply
  | none => failedReply
  | some (.answer a) => ⟨a.status, bodyFor r a.body, some (correlationOf around r)⟩
  | some (.redirect _) => ⟨307, .text "", some (correlationOf around r)⟩

/-- The request to another path with the same query. -/
def Request.redirected (r : Request) (path : List Char) : Request :=
  { r with target := { r.target with path } }

/-- The reply to a request, after the one redirection that there can be. -/
def reply (around : Surroundings) (r : Request) : StateM World Reply := do
  match ← traced around r with
  | some (.redirect path) =>
    let r := r.redirected path
    return replyWith around r (← traced around r)
  | o => pure (replyWith around r o)

/-! ## The service -/

/-- The settings of the service's executor: its pacing has a variable of its own. -/
def apiConfig (env : Environment) : Except Trouble Config := do
  let pacing ← floatVariable env "FLOW_API_PACING_MS" 0.0
  Config.read env (some (.scalar pacing))

/-- Take or free the executor's lock from outside. -/
def setLock (locked : Bool) : StateM World Bool :=
  modifyGet fun w => (locked, { w with executor := { w.executor with locked } })

end StepFlow.Service
