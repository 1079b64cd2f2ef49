/-
  StepFlow.Flow.Encode — flows as JSON documents: the fields in the order of the types, by
  their first spelling, absent ones left out.
-/

import StepFlow.Flow.Basic

namespace StepFlow

namespace Encode

/-- A member that may be absent. -/
def optional {α : Type} (name : String) (encode : α → Json) : Option α → List (String × Json)
  | some a => [(name, encode a)]
  | none => []

def position (p : Position) : Json := .obj [("x", .float p.x.float), ("y", .float p.y.float)]

def headers (hs : Headers) : Json := .obj (hs.map fun h => (h.1, .str h.2))

def apiConfig (c : ApiConfig) : Json :=
  .obj ([("url", .str c.url), ("method", .str c.method.text)]
    ++ optional "headers" headers c.headers ++ optional "body" .str c.body)

def nodeData (d : NodeData) : Json :=
  .obj ([("label", .str d.label)] ++ optional "description" .str d.description
    ++ optional "script" .str d.script ++ optional "condition" .str d.condition
    ++ optional "apiConfig" apiConfig d.apiConfig)

def node (n : Node) : Json :=
  .obj [("id", .str n.id), ("type", .str n.type.text), ("position", position n.position),
    ("data", nodeData n.data)]

def connection (c : Connection) : Json :=
  .obj ([("id", .str c.id), ("source", .str c.source), ("target", .str c.target)]
    ++ optional "sourcePort" .str c.sourcePort)

end Encode

def Flow.json (f : Flow) : Json :=
  .obj ([("id", .str f.id), ("name", .str f.name)] ++ Encode.optional "description" .str f.description
    ++ [("nodes", .arr (f.nodes.map Encode.node)), ("connections", .arr (f.connections.map Encode.connection))])

end StepFlow
