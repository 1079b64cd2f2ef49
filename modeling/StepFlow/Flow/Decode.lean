/-
  StepFlow.Flow.Decode — flows from JSON documents.

  Fields are decoded in the order of the types, unknown ones are ignored, and all problems
  are reported. A field with two spellings (`apiConfig`, `api_config`) is looked up by the
  first one first. An absent optional field and null are the same; any other field may be
  absent only if it has a default, and is never null.
  - A coordinate may be a number, a boolean, or a text that is a number.
  - The NaN of a document is one and the same; one written as a text is a new one, with a
    label that its node and its axis tell.
-/

import StepFlow.Flow.Basic
import StepFlow.Flow.Problem
import StepFlow.Number.Numeral

namespace StepFlow.Decode

variable {α : Type}

abbrev Decoder (α : Type) := Path → Json → Checked α

/-- Words as a message lists them: `'A', 'B' or 'C'`. -/
def alternatives : List String → String
  | [] => ""
  | [w] => "'" ++ w ++ "'"
  | [v, w] => "'" ++ v ++ "' or '" ++ w ++ "'"
  | w :: ws => "'" ++ w ++ "', " ++ alternatives ws

def text : Decoder String := fun path j =>
  match j with
  | .str s => pure s
  | j => Checked.fail .stringType path j

def nodeType : Decoder NodeType := fun path j =>
  let refuse := Checked.fail (.word (alternatives (NodeType.all.map (·.text)))) path j
  match j with
  | .str s => (NodeType.ofText? s).elim refuse pure
  | _ => refuse

def method : Decoder Method := fun path j =>
  let refuse := Checked.fail (.literal (alternatives (Method.all.map (·.text)))) path j
  match j with
  | .str s => (Method.ofText? s).elim refuse pure
  | _ => refuse

/-- A text without its underscores, which stand one at a time and at neither end. -/
def withoutUnderscores (cs : List Char) : Option (List Char) :=
  if cs.contains '_' && cs.head? != some '_' && Numeral.underscoresOk cs then some (cs.filter (· != '_'))
  else none

def readCoordinate (s : String) : Option Float :=
  match Numeral.readSigned (Text.trim Text.isWhite s.toList) with
  | some x => some x
  | none => (withoutUnderscores s.toList).bind Numeral.readSigned

def Coordinate.ofFloat (label : Nat) (x : Float) : Coordinate := if x.isNaN then .nan label else .real x

/-- A coordinate; `label` is that of a NaN written as a text. -/
def coordinate (label : Nat) : Decoder Coordinate := fun path j =>
  match j with
  | .float x => pure (Coordinate.ofFloat documentNan x)
  | .int n => match Binary64.ofInt? n with
    | some x => pure (.real x)
    | none => Checked.fail .floatType path j
  | .bool b => pure (.real (if b then 1.0 else 0.0))
  | .str s => match readCoordinate s with
    | some x => pure (Coordinate.ofFloat label x)
    | none => Checked.fail .floatParsing path j
  | j => Checked.fail .floatType path j

/-! ## Fields -/

/-- An object of a class, by its members. -/
def model (origin : Origin) (className : String) (body : Path → Json → List (String × Json) → Checked α) :
    Decoder α := fun path j =>
  match j with
  | .obj members => body path j members
  | j => match origin with
    | .document => Checked.fail (.modelType className) path j
    | .request => Checked.fail .attributesType path j

/-- The first spelling that is there, with its value. -/
def find (members : List (String × Json)) (spellings : List String) : Option (String × Json) :=
  spellings.findSome? fun s => (Json.member? members s).map fun j => (s, j)

def required (whole : Json) (members : List (String × Json)) (path : Path) (name : String) (decode : Decoder α) :
    Checked α :=
  match find members [name] with
  | some (s, j) => decode (path ++ [.name s]) j
  | none => Checked.fail .missing (path ++ [.name name]) whole

def withDefault (members : List (String × Json)) (path : Path) (name : String) (default : α)
    (decode : Decoder α) : Checked α :=
  match find members [name] with
  | some (s, j) => decode (path ++ [.name s]) j
  | none => pure default

def optional (members : List (String × Json)) (path : Path) (spellings : List String) (decode : Decoder α) :
    Checked (Option α) :=
  match find members spellings with
  | some (s, j) => match j with
    | .null => pure none
    | j => some <$> decode (path ++ [.name s]) j
  | none => pure none

def list (decode : Nat → Decoder α) : Decoder (List α) := fun path j =>
  match j with
  | .arr js => collect path 0 js
  | j => Checked.fail .listType path j
where
  collect (path : Path) (index : Nat) : List Json → Checked (List α)
    | [] => pure []
    | j :: js => List.cons <$> decode index (path ++ [.index index]) j <*> collect path (index + 1) js

/-! ## Flows -/

def headers : Decoder Headers := fun path j =>
  match j with
  | .obj members => collect path members
  | j => Checked.fail .objectType path j
where
  collect (path : Path) : List (String × Json) → Checked Headers
    | [] => pure []
    | (n, j) :: ms => (fun v hs => (n, v) :: hs) <$> text (path ++ [.name n]) j <*> collect path ms

def position (origin : Origin) (label : Nat) : Decoder Position :=
  model origin "Position" fun path whole ms =>
    Position.mk <$> required whole ms path "x" (coordinate label)
      <*> required whole ms path "y" (coordinate (label + 1))

def apiConfig (origin : Origin) : Decoder ApiConfig :=
  model origin "ApiConfig" fun path whole ms =>
    ApiConfig.mk <$> required whole ms path "url" text
      <*> withDefault ms path "method" .get method
      <*> optional ms path ["headers"] headers
      <*> optional ms path ["body"] text

def nodeData (origin : Origin) : Decoder NodeData :=
  model origin "NodeData" fun path whole ms =>
    NodeData.mk <$> required whole ms path "label" text
      <*> optional ms path ["description"] text
      <*> optional ms path ["script"] text
      <*> optional ms path ["condition"] text
      <*> optional ms path ["apiConfig", "api_config"] (apiConfig origin)

def node (origin : Origin) (label : Nat) : Decoder Node :=
  model origin "FlowNode" fun path whole ms =>
    Node.mk <$> required whole ms path "id" text
      <*> required whole ms path "type" nodeType
      <*> withDefault ms path "position" .origin (position origin label)
      <*> required whole ms path "data" (nodeData origin)

def connection (origin : Origin) : Decoder Connection :=
  model origin "FlowConnection" fun path whole ms =>
    Connection.mk <$> required whole ms path "id" text
      <*> required whole ms path "source" text
      <*> required whole ms path "target" text
      <*> optional ms path ["sourcePort", "source_port"] text

/-- A flow; NaNs written as texts get labels from `label` on, two for each node. -/
def flow (origin : Origin) (label : Nat) : Decoder Flow :=
  model origin "Flow" fun path whole ms =>
    Flow.mk <$> required whole ms path "id" text
      <*> required whole ms path "name" text
      <*> optional ms path ["description"] text
      <*> withDefault ms path "nodes" [] (list fun i => node origin (label + 2 * i))
      <*> withDefault ms path "connections" [] (list fun _ => connection origin)

end StepFlow.Decode
