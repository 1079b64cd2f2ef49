/-
  StepFlow.Http.Scripted — a transport that answers from a list, one entry for each call.

  Failures are named by their classes. After the last entry every call crashes.
-/

import StepFlow.Http.Call

namespace StepFlow.Http

/-- The classes of failures of the network. -/
def networkClasses : List String :=
  ["Timeout", "ConnectTimeout", "ReadTimeout", "ConnectionError", "SSLError", "ProxyError"]

/-- The classes of crashes; one of them quotes its text. -/
def crashClasses : List String := ["RuntimeError", "ValueError", "KeyError"]

/-- The failure of a class; any other class is a failure of the request. -/
def Failure.named (className message : String) (status : Option Int) : Failure :=
  if networkClasses.contains className then .network className message
  else if crashClasses.contains className then
    .crash ⟨className, if className == "KeyError" then Text.quoted message else message⟩
  else .request message status

def exhausted : Answer := .failure (.crash ⟨"RuntimeError", "no scripted response"⟩)

/-- The next answer, and those after it. -/
def nextAnswer : List Answer → Answer × List Answer
  | [] => (exhausted, [])
  | a :: rest => (a, rest)

end StepFlow.Http
