/-
  StepFlow.Service.Request — requests to the service and what is read of them: the headers and
  the body.

  - Methods are upper case, however they are written.
  - Headers are ASCII. Their names are the same in any case; the first one counts.
  - A body is JSON if its type says so; otherwise it is a text.
-/

import StepFlow.Flow.Problem
import StepFlow.Service.Target
import StepFlow.Text.Case

namespace StepFlow.Service

structure Request where
  method : String
  target : Target
  headers : List (String × String)
  body : List UInt8

/-- What keeps a request from being made: its address, or a header that is not ASCII. -/
inductive RequestFault where
  | address (f : AddressFault)
  | header (text : String)
  deriving DecidableEq, Repr

def isAscii (c : Char) : Bool := decide (c.toNat < 128)

/-- Where the first characters beyond ASCII stand. -/
def notAsciiMessage (text : String) : String :=
  let start := (text.toList.takeWhile isAscii).length
  let run := (text.toList.drop start).takeWhile fun c => !isAscii c
  let found := match run with
    | [c] => s!"character '{String.ofList (Text.numbered c)}' in position {start}"
    | _ => s!"characters in position {start}-{start + run.length - 1}"
  s!"'ascii' codec can't encode {found}: ordinal not in range(128)"

namespace RequestFault

def message : RequestFault → String
  | .address f => f.message
  | .header text => notAsciiMessage text

def className : RequestFault → String
  | .address f => f.className
  | .header _ => "UnicodeEncodeError"

end RequestFault

namespace Request

def create (method address : String) (headers : List (String × String)) (body : List UInt8) :
    Except RequestFault Request := do
  let target ← (Target.read address).mapError .address
  let texts := headers.flatMap fun h => [h.1, h.2]
  match texts.find? fun t => !t.toList.all isAscii with
  | some t => .error (.header t)
  | none => pure ⟨Text.upperText method, target, headers, body⟩

def header? (r : Request) (name : String) : Option String :=
  (r.headers.find? fun h => Text.lowerText h.1 == Text.lowerText name).map (·.2)

end Request

/-! ## Bodies -/

/-- The main type and the subtype of a body. -/
def contentType (value : String) : String × String :=
  let main := Text.trim Text.isBlank (splitAt ';' (Text.lowerText value).toList).1
  if main.count '/' = 1 then
    let (type, subtype) := splitAt '/' main
    (String.ofList type, String.ofList subtype)
  else ("text", "plain")

def isJsonType (value : String) : Bool :=
  let (type, subtype) := contentType value
  type == "application" && (subtype == "json" || subtype.endsWith "+json")

inductive Content where
  | none
  | json (j : Json)
  | text (s : String)

inductive BodyFault where
  | notJson (e : Json.SyntaxError)
  | unreadable

def readJsonBody (bytes : List UInt8) : Except BodyFault Content :=
  match Text.ofRequest bytes with
  | none => .error .unreadable
  | some text => match Json.readDecoded text with
    | .ok j => .ok (.json j)
    | .error (.malformed e) => .error (.notJson e)
    | .error (.tooLong _) => .error .unreadable

def Request.content (r : Request) : Except BodyFault Content :=
  if r.body.isEmpty then .ok .none
  else if ((r.header? "content-type").map isJsonType).getD false then readJsonBody r.body
  else .ok (.text (String.ofList (Text.lenient r.body)))

end StepFlow.Service
