/-
  StepFlow.Value.Copy — a deep copy: fresh containers for all that a value reaches, shared
  and cyclic in the copy exactly where they are in what was copied.

  The containers reached are numbered in the order of the search; the copy of the `i`-th is
  the `i`-th fresh cell.
-/

import StepFlow.Value.Basic

namespace StepFlow

namespace Cell

def values : Cell → List Value
  | .list xs => xs
  | .object es => es.map (·.2)

def refs (c : Cell) : List Ref :=
  c.values.filterMap fun
    | .ref r => some r
    | .scalar _ => none

def mapValues (f : Value → Value) : Cell → Cell
  | .list xs => .list (xs.map f)
  | .object es => .object (es.map fun e => (e.1, f e.2))

end Cell

namespace Heap

/-- The containers reached from those still to visit, after those found. Every turn but the
    idle ones finds a new container or shortens the list, so `room` can be computed. -/
def reachFrom (h : Heap) : Nat → List Ref → List Ref → List Ref
  | 0, found, _ => found
  | _, found, [] => found
  | room + 1, found, r :: todo =>
    if found.contains r then reachFrom h room found todo
    else reachFrom h room (found ++ [r]) ((h.cell r).refs ++ todo)

-- a sum of naturals begins at the same zero whatever else is imported
attribute [local instance (high)] Zero.ofOfNat0

/-- The references that all cells hold, counted as often as they occur. -/
def edges (h : Heap) : Nat := (h.cells.toList.map fun c => c.refs.length).sum

def reachable (h : Heap) (roots : List Ref) : List Ref :=
  h.reachFrom (roots.length + h.edges) [] roots

def renamed (found : List Ref) (base : Nat) : Value → Value
  | .scalar s => .scalar s
  | .ref r => match found.idxOf? r with
    | some i => .ref (base + i)
    | none => .ref r

def deepCopy (h : Heap) (v : Value) : Value × Heap :=
  match v with
  | .scalar s => (.scalar s, h)
  | .ref r =>
    let found := h.reachable [r]
    let base := h.cells.size
    let copies := found.map fun s => (h.cell s).mapValues (renamed found base)
    (renamed found base v, { h with cells := h.cells ++ copies.toArray })

end Heap

end StepFlow
