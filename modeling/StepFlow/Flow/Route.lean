/-
  StepFlow.Flow.Route — the way through a flow: where it starts, and where a connection
  leads. The first in order counts, among nodes as among connections.
-/

import StepFlow.Flow.Basic

namespace StepFlow.Flow

def startNode? (f : Flow) : Option Node := f.nodes.find? (·.type == .start)

/-- The first connection from a node; with a port, the first one tagged with it. -/
def next? (f : Flow) (id : String) (port : Option String) : Option Connection :=
  f.connections.find? fun c => c.source == id && (port.isNone || c.sourcePort == port)

def node? (f : Flow) (id : String) : Option Node := f.nodes.find? (·.id == id)

end StepFlow.Flow
