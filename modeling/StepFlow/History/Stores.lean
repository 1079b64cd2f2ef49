/-
  StepFlow.History.Stores — the stores of states: the heap, for values, and a list of flows.
-/

import StepFlow.Flow.Basic
import StepFlow.History.Basic
import StepFlow.Value.Copy

namespace StepFlow

/-- Values on the heap, copied with all that they reach. -/
def valueStorage : Storage Heap Value where
  copy v h := h.deepCopy v
  equal h a b := h.equal a b

/-- Flows that can be changed, numbered in the order they were made. -/
abbrev FlowStore := List Flow

/-- A flow of a store, by its number. -/
abbrev FlowRef := Nat

namespace FlowStore

def add (s : FlowStore) (f : Flow) : FlowRef × FlowStore := (s.length, s ++ [f])

def change (s : FlowStore) (r : FlowRef) (f : Flow → Flow) : FlowStore := s.modify r f

end FlowStore

def flowStorage : Storage FlowStore FlowRef where
  copy r s := match s[r]? with
    | some f => s.add f
    | none => (r, s)
  equal s a b := match s[a]?, s[b]? with
    | some f, some g => .ok (f.same g)
    | _, _ => .ok false

end StepFlow
