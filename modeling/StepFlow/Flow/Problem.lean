/-
  StepFlow.Flow.Problem — what can be wrong with a document that should be a flow, and
  decoders that find all of it.

  A problem stands at a path of names and indexes and keeps the part of the document found
  there; a missing field keeps the object that lacks it. Results are put together from
  parts (`Checked` is applicative): if parts are bad, all their problems are kept, in order.
-/

import StepFlow.Json.Basic

namespace StepFlow

inductive Key where
  | name (s : String)
  | index (n : Nat)
  deriving DecidableEq, Repr

abbrev Path := List Key

/-- Where a document comes from: a text of its own, or the body of a request. -/
inductive Origin where
  | document | request
  deriving DecidableEq, Repr

inductive ProblemKind where
  | missing
  | stringType
  | listType
  | objectType
  /-- The part that should be an object of that class. -/
  | modelType (className : String)
  | attributesType
  | floatType
  | floatParsing
  | boolParsing
  /-- None of the words that stand for a type of node. -/
  | word (expected : String)
  /-- None of the words of a fixed list. -/
  | literal (expected : String)
  | missingBody
  | notJson (cause : String)
  deriving DecidableEq, Repr

namespace ProblemKind

def type : ProblemKind → String
  | .missing | .missingBody => "missing"
  | .stringType => "string_type"
  | .listType => "list_type"
  | .objectType => "dict_type"
  | .modelType _ => "model_type"
  | .attributesType => "model_attributes_type"
  | .floatType => "float_type"
  | .floatParsing => "float_parsing"
  | .boolParsing => "bool_parsing"
  | .word _ => "enum"
  | .literal _ => "literal_error"
  | .notJson _ => "json_invalid"

def message : ProblemKind → String
  | .missing | .missingBody => "Field required"
  | .stringType => "Input should be a valid string"
  | .listType => "Input should be a valid list"
  | .objectType => "Input should be a valid dictionary"
  | .modelType className => s!"Input should be a valid dictionary or instance of {className}"
  | .attributesType => "Input should be a valid dictionary or object to extract fields from"
  | .floatType => "Input should be a valid number"
  | .floatParsing => "Input should be a valid number, unable to parse string as a number"
  | .boolParsing => "Input should be a valid boolean, unable to interpret input"
  | .word expected | .literal expected => s!"Input should be {expected}"
  | .notJson _ => "JSON decode error"

/-- What a report adds to the message, by name. -/
def context? : ProblemKind → Option (String × String)
  | .word expected | .literal expected => some ("expected", expected)
  | .notJson cause => some ("error", cause)
  | _ => none

end ProblemKind

structure Problem where
  kind : ProblemKind
  path : Path
  input : Json

inductive Checked (α : Type) where
  | good (a : α)
  | bad (problems : List Problem)

namespace Checked

variable {α β : Type}

def map (f : α → β) : Checked α → Checked β
  | .good a => .good (f a)
  | .bad ps => .bad ps

/-- Both results, or the problems of both. -/
def apply (f : Checked (α → β)) (a : Checked α) : Checked β :=
  match f, a with
  | .good f, .good a => .good (f a)
  | .good _, .bad ps => .bad ps
  | .bad ps, .good _ => .bad ps
  | .bad ps, .bad qs => .bad (ps ++ qs)

instance : Applicative Checked where
  pure := .good
  map := map
  seq f a := apply f (a ())

def fail (kind : ProblemKind) (path : Path) (input : Json) : Checked α := .bad [⟨kind, path, input⟩]

end Checked

end StepFlow
