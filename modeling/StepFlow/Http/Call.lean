/-
  StepFlow.Http.Call — calls of web services and what comes of them.

  A call has a method, an address, headers and an optional body. Its transport gives an
  answer, whose body is to be JSON whatever its status, or fails. What `settle` makes of it
  is a document or a fault, and what it has to say about it to the log.
  - Headers of a call override the defaults; one that does keeps its place.
  - A failure of the network is told by its class, another failure of the request by the
    status of an answer, if there was one. A transport may also fail with an error of the flow
    that says all there is to say. A crash is no fault of the call and keeps its class.
-/

import StepFlow.Flow.Basic
import StepFlow.Json.Read
import StepFlow.Log.Basic
import StepFlow.Text.Encoding

namespace StepFlow.Http

structure Call where
  method : String
  url : String
  headers : Headers
  body : Option String
  deriving DecidableEq, Repr

/-- The bytes that the call sends as its body. -/
def Call.payload (call : Call) : Option (List UInt8) := call.body.map fun text => text.toUTF8.toList

def defaultHeaders : Headers := [("Content-Type", "application/json")]

/-- The default headers, overridden and extended. -/
def requestHeaders (headers : Option (List (String × String))) : Headers :=
  defaultHeaders.update (headers.getD [])

inductive Failure where
  /-- No answer in time, or no connection. -/
  | network (className message : String)
  | request (message : String) (status : Option Int)
  /-- An error of the flow that the transport raises itself. -/
  | flow (message : String)
  | crash (c : Crash)
  deriving DecidableEq, Repr

inductive Answer where
  | response (status : Int) (body : List UInt8)
  | failure (f : Failure)
  deriving DecidableEq, Repr

inductive Fault where
  | network (className message : String)
  | request (message : String) (status : Option Int)
  | notJson (url message : String) (status : Int)
  | flow (message : String)
  | crash (c : Crash)
  deriving DecidableEq, Repr

namespace Fault

def message : Fault → String
  | .network _ m => s!"Network error: {m}"
  | .request m _ => s!"Request failed: {m}"
  | .notJson url m _ => s!"Response from {url} is not valid JSON: {m}"
  | .flow m => m
  | .crash c => c.text

def className : Fault → String
  | .crash c => c.className
  | _ => "HttpCallError"

def status? : Fault → Option Int
  | .request _ s => s
  | .notJson _ _ s => some s
  | .network .. | .flow _ | .crash _ => none

end Fault

/-- From this status on, an answer reports an error. -/
def errorStatus : Int := 400

def statusFields (call : Call) (status : Int) : List (String × Json) :=
  [("url", .str call.url), ("status_code", .int status)]

def statusNotices (call : Call) (status : Int) : List Log.Notice :=
  if errorStatus ≤ status then
    [⟨.warning, "API responded with error status", statusFields call status, false⟩]
  else []

/-- What becomes of a call. -/
def settle (call : Call) : Answer → Except Fault Json × List Log.Notice
  | .failure (.network className m) => (.error (.network className m), [])
  | .failure (.request m s) => (.error (.request m s), [])
  | .failure (.flow m) => (.error (.flow m), [])
  | .failure (.crash c) => (.error (.crash c), [])
  | .response status bytes =>
    match Json.read (Text.ofAnswer bytes) with
    | .ok j => (.ok j, statusNotices call status)
    | .error e =>
      (.error (.notJson call.url e.message status),
        statusNotices call status
          ++ [⟨.debug, "Response body is not JSON", statusFields call status, false⟩])

end StepFlow.Http
