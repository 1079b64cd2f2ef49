/-
  StepFlow.Value.Equal — when two values are equal, and which is less.

  - `equal` is `==`: a NaN is unequal to itself. `same` is how the members of containers, and
    what `contains` looks for, are compared: identity first, then `equal`.
  - Containers nested past `depthLimit` are trouble, so two containers that hold themselves
    have no comparison unless they are the same.
  - Only numbers, two texts and two lists have an order; lists compare by their first
    members that differ.
-/

import StepFlow.Value.Number

namespace StepFlow

namespace Scalar

def equal : Scalar → Scalar → Bool
  | .null, .null => true
  | .str s, .str t => s == t
  | a, b => a.compareNumbers b == some .eq

/-- The same NaN. -/
def identical : Scalar → Scalar → Bool
  | .nan a, .nan b => a == b
  | _, _ => false

/-- Equal as a member or a key. -/
def same (a b : Scalar) : Bool := a.identical b || a.equal b

end Scalar

/-- The value of a key. -/
def lookupKey (entries : List (Scalar × Value)) (k : Scalar) : Option Value :=
  (entries.find? fun e => e.1.same k).map (·.2)

/-- Assign to a key: an equal key keeps its place and spelling, a new one goes last. -/
def assignKey (entries : List (Scalar × Value)) (k : Scalar) (v : Value) : List (Scalar × Value) :=
  match entries with
  | [] => [(k, v)]
  | (k', w) :: rest => if k'.same k then (k', v) :: rest else (k', w) :: assignKey rest k v

/-- The entries of an object built from pairs in turn. -/
def entriesOf (pairs : List (Scalar × Value)) : List (Scalar × Value) :=
  pairs.foldl (fun es p => assignKey es p.1 p.2) []

namespace Value

def identical : Value → Value → Bool
  | .scalar a, .scalar b => a.identical b
  | .ref r, .ref s => r == s
  | _, _ => false

end Value

namespace Heap

variable (h : Heap)

/-- All pairs of members are the same; `same` compares two members. -/
def allSame (same : Value → Value → Except Trouble Bool) : List Value → List Value → Except Trouble Bool
  | x :: xs, y :: ys => do if ← same x y then allSame same xs ys else pure false
  | _, _ => pure true

/-- Every key of the entries is a key of the others, with the same value. -/
def allEntriesSame (same : Value → Value → Except Trouble Bool) (others : List (Scalar × Value)) :
    List (Scalar × Value) → Except Trouble Bool
  | [] => pure true
  | (k, v) :: es => match lookupKey others k with
    | none => pure false
    | some w => do if ← same w v then allEntriesSame same others es else pure false

def equalWithin : Nat → Value → Value → Except Trouble Bool
  | _, .scalar a, .scalar b => pure (a.equal b)
  | 0, .ref _, .ref _ => throw .tooDeep
  | depth + 1, .ref r, .ref s =>
    let same (a b : Value) := if a.identical b then pure true else equalWithin depth a b
    match h.cell r, h.cell s with
    | .list xs, .list ys => if xs.length = ys.length then allSame same xs ys else pure false
    | .object es, .object fs => if es.length = fs.length then allEntriesSame same fs es else pure false
    | _, _ => pure false
  | _, _, _ => pure false

/-- Equality, as `==` has it. -/
def equal (a b : Value) : Except Trouble Bool := h.equalWithin depthLimit a b

/-- Identity, or else `==`. -/
def same (a b : Value) : Except Trouble Bool := if a.identical b then pure true else h.equal a b

end Heap

/-- The four comparisons that ask for an order. -/
inductive OrderOp where
  | lt | le | gt | ge
  deriving DecidableEq, Repr

namespace OrderOp

def text : OrderOp → String
  | .lt => "<"
  | .le => "<="
  | .gt => ">"
  | .ge => ">="

def holds (op : OrderOp) (o : Ordering) : Bool :=
  match op with
  | .lt => o.isLT
  | .le => o.isLE
  | .gt => o.isGT
  | .ge => o.isGE

end OrderOp

namespace Scalar

def order (a : Scalar) (op : OrderOp) (b : Scalar) : Except Trouble Bool :=
  match a, b with
  | .str s, .str t => pure (op.holds (compare s t))
  | a, b =>
    if a.isNumber && b.isNumber then pure ((a.compareNumbers b).any op.holds)
    else throw (.type (.order op.text a.kind b.kind))

end Scalar

namespace Heap

variable (h : Heap)

/-- The first pair of members that are not the same. -/
def firstDifferent : List Value → List Value → Except Trouble (Option (Value × Value))
  | x :: xs, y :: ys => do if ← h.same x y then firstDifferent xs ys else pure (some (x, y))
  | _, _ => pure none

def orderWithin (op : OrderOp) : Nat → Value → Value → Except Trouble Bool
  | _, .scalar a, .scalar b => a.order op b
  | 0, .ref _, .ref _ => throw .tooDeep
  | depth + 1, .ref r, .ref s =>
    match h.cell r, h.cell s with
    | .list xs, .list ys => do
      match ← h.firstDifferent xs ys with
      | some (x, y) => orderWithin op depth x y
      | none => pure (op.holds (compare xs.length ys.length))
    | _, _ => throw (.type (.order op.text (h.kind (.ref r)) (h.kind (.ref s))))
  | _, a, b => throw (.type (.order op.text (h.kind a) (h.kind b)))

def order (op : OrderOp) (a b : Value) : Except Trouble Bool := h.orderWithin op depthLimit a b

end Heap

end StepFlow
