/-
  StepFlow.Flow.Basic — flows: nodes of six types and the connections between them.

  A node's payload has fields for every type; those of other types than its own mean nothing.
  A connection may be tagged with the port that it leaves its source by.
  - A coordinate is a double, or a NaN with an identity: two NaNs are equal iff they are the
    same one. Label 0 is the NaN of JSON documents.
  - Two flows are equal (`Flow.same`) if all they hold is, where the order of headers does
    not count.
-/

import StepFlow.Json.Basic

namespace StepFlow

inductive NodeType where
  | start | task | decision | script | api | finish
  deriving DecidableEq, Repr

namespace NodeType

def text : NodeType → String
  | .start => "START"
  | .task => "TASK"
  | .decision => "DECISION"
  | .script => "SCRIPT"
  | .api => "API"
  | .finish => "END"

def all : List NodeType := [.start, .task, .decision, .script, .api, .finish]

def ofText? (s : String) : Option NodeType := all.find? (·.text == s)

end NodeType

inductive Method where
  | get | post | put | delete
  deriving DecidableEq, Repr

namespace Method

def text : Method → String
  | .get => "GET"
  | .post => "POST"
  | .put => "PUT"
  | .delete => "DELETE"

def all : List Method := [.get, .post, .put, .delete]

def ofText? (s : String) : Option Method := all.find? (·.text == s)

/-- Whether a call of this method sends a body. -/
def sendsBody : Method → Bool
  | .get => false
  | .post | .put | .delete => true

end Method

inductive Coordinate where
  /-- Not NaN. -/
  | real (x : Float)
  | nan (label : Nat)

namespace Coordinate

def same : Coordinate → Coordinate → Bool
  | .real x, .real y => x == y
  | .nan a, .nan b => a == b
  | _, _ => false

def float : Coordinate → Float
  | .real x => x
  | .nan _ => 0.0 / 0.0

def zero : Coordinate := .real 0.0

end Coordinate

structure Position where
  x : Coordinate
  y : Coordinate

def Position.same (p q : Position) : Bool := p.x.same q.x && p.y.same q.y

def Position.origin : Position := ⟨.zero, .zero⟩

/-- Names with values; a name occurs once. -/
abbrev Headers := List (String × String)

namespace Headers

def set (headers : Headers) (name value : String) : Headers :=
  match headers with
  | [] => [(name, value)]
  | (n, v) :: rest => if n == name then (n, value) :: rest else (n, v) :: set rest name value

/-- Set the names of another list in turn. -/
def update (headers : Headers) (others : List (String × String)) : Headers :=
  others.foldl (fun hs h => hs.set h.1 h.2) headers

/-- The same names with the same values. -/
def same (a b : Headers) : Bool :=
  a.length == b.length && a.all fun h => b.lookup h.1 == some h.2

end Headers

structure ApiConfig where
  url : String
  method : Method
  headers : Option Headers
  body : Option String

def ApiConfig.same (a b : ApiConfig) : Bool :=
  a.url == b.url && a.method == b.method && a.body == b.body &&
    match a.headers, b.headers with
    | none, none => true
    | some g, some h => g.same h
    | _, _ => false

structure NodeData where
  label : String
  description : Option String
  script : Option String
  condition : Option String
  apiConfig : Option ApiConfig

def NodeData.same (a b : NodeData) : Bool :=
  a.label == b.label && a.description == b.description && a.script == b.script &&
    a.condition == b.condition &&
    match a.apiConfig, b.apiConfig with
    | none, none => true
    | some g, some h => g.same h
    | _, _ => false

structure Node where
  id : String
  type : NodeType
  position : Position
  data : NodeData

def Node.same (a b : Node) : Bool :=
  a.id == b.id && a.type == b.type && a.position.same b.position && a.data.same b.data

structure Connection where
  id : String
  source : String
  target : String
  sourcePort : Option String
  deriving DecidableEq, Repr

structure Flow where
  id : String
  name : String
  description : Option String
  nodes : List Node
  connections : List Connection

/-- Two lists agree item by item. -/
def allPairs {α : Type} (same : α → α → Bool) : List α → List α → Bool
  | [], [] => true
  | a :: as, b :: bs => same a b && allPairs same as bs
  | _, _ => false

def Flow.same (a b : Flow) : Bool :=
  a.id == b.id && a.name == b.name && a.description == b.description &&
    allPairs Node.same a.nodes b.nodes && a.connections == b.connections

end StepFlow
