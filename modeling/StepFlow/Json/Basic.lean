/-
  StepFlow.Json.Basic — JSON documents, and documents as values.

  Beyond the standard there are the numbers NaN, infinity and minus infinity, and whole
  numbers stay whole at any size. An object keeps its members in the order of their first
  appearance, each name once, with the value it was given last.
-/

import StepFlow.Value.Equal

namespace StepFlow

inductive Json where
  | null
  | bool (b : Bool)
  | int (n : Int)
  | float (x : Float)
  | str (s : String)
  | arr (items : List Json)
  | obj (members : List (String × Json))
  deriving Inhabited

namespace Json

/-- Give a name a value: a known name keeps its place, a new one goes last. -/
def assign (members : List (String × Json)) (name : String) (j : Json) : List (String × Json) :=
  match members with
  | [] => [(name, j)]
  | (n, k) :: rest => if n == name then (n, j) :: rest else (n, k) :: assign rest name j

/-- The members of an object that is given names in turn. -/
def merged (pairs : List (String × Json)) : List (String × Json) :=
  pairs.foldl (fun ms p => assign ms p.1 p.2) []

def member? (members : List (String × Json)) (name : String) : Option Json := members.lookup name

/-- A text, or null. -/
def ofText? : Option String → Json
  | some s => .str s
  | none => .null

end Json

/-- The label of the one NaN that documents share. -/
def documentNan : Nat := 0

namespace Heap

mutual

/-- A document as a value, with new containers. -/
def ofJson (h : Heap) : Json → Value × Heap
  | .null => (.null, h)
  | .bool b => (.bool b, h)
  | .int n => (.int n, h)
  | .float x => (.scalar (if x.isNaN then .nan documentNan else .float x), h)
  | .str s => (.str s, h)
  | .arr items =>
    let r := ofItems h items
    r.2.alloc (.list r.1)
  | .obj members =>
    let r := ofMembers h members
    r.2.alloc (.object r.1)

def ofItems (h : Heap) : List Json → List Value × Heap
  | [] => ([], h)
  | j :: js =>
    let r := ofJson h j
    let rs := ofItems r.2 js
    (r.1 :: rs.1, rs.2)

def ofMembers (h : Heap) : List (String × Json) → List (Scalar × Value) × Heap
  | [] => ([], h)
  | (n, j) :: ms =>
    let r := ofJson h j
    let rs := ofMembers r.2 ms
    ((.str n, r.1) :: rs.1, rs.2)

end

end Heap

end StepFlow
