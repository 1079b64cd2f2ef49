/-
  StepFlow.Value.Basic — the values of the flow language and the heap they live in.

  A value is a scalar or a reference to a list or an object on the heap. Lists and objects
  are shared: two variables may hold the same reference, and a container may hold itself.
  - A NaN has an identity, its label: it is unequal to every number and to itself under
    `==`, yet a list that holds it equals itself. Label 0 is the NaN of JSON documents.
  - An object keeps its keys in the order of their first assignment. Keys are scalars;
    numbers that are equal are the same key, whatever their types (`1`, `1.0`, `true`), and
    the first spelling stays.
-/

import StepFlow.Number.Decimal

namespace StepFlow

inductive Scalar where
  | null
  | bool (b : Bool)
  | int (n : Int)
  /-- Not NaN. -/
  | float (x : Float)
  | nan (label : Nat)
  | str (s : String)
  deriving Inhabited

abbrev Ref := Nat

inductive Value where
  | scalar (s : Scalar)
  | ref (r : Ref)
  deriving Inhabited

inductive Cell where
  | list (items : List Value)
  | object (entries : List (Scalar × Value))
  deriving Inhabited

structure Heap where
  cells : Array Cell
  /-- The label of the next NaN. -/
  nextNan : Nat
  deriving Inhabited

/-- The variables that a script sees, in the order of their first assignment. -/
abbrev Env := List (String × Value)

/-- What a value is, for messages. -/
inductive Kind where
  | null | bool | int | float | str | list | object
  deriving DecidableEq, Repr

/-- The flow language's word for a kind. -/
def Kind.word : Kind → String
  | .null => "null"
  | .bool => "boolean"
  | .int | .float => "number"
  | .str => "string"
  | .list => "list"
  | .object => "object"

/-- The word for a kind in the messages of functions and of arithmetic. -/
def Kind.tag : Kind → String
  | .null => "NoneType"
  | .bool => "bool"
  | .int => "int"
  | .float => "float"
  | .str => "str"
  | .list => "list"
  | .object => "dict"

namespace Value

abbrev null : Value := .scalar .null
abbrev bool (b : Bool) : Value := .scalar (.bool b)
abbrev int (n : Int) : Value := .scalar (.int n)
abbrev str (s : String) : Value := .scalar (.str s)

end Value

def Scalar.kind : Scalar → Kind
  | .null => .null
  | .bool _ => .bool
  | .int _ => .int
  | .float _ | .nan _ => .float
  | .str _ => .str

namespace Heap

def empty : Heap := ⟨#[], 1⟩

def cell (h : Heap) (r : Ref) : Cell := h.cells.getD r (.list [])

def alloc (h : Heap) (c : Cell) : Value × Heap := (.ref h.cells.size, { h with cells := h.cells.push c })

/-- Replace what a reference stands for. -/
def write (h : Heap) (r : Ref) (c : Cell) : Heap := { h with cells := h.cells.setIfInBounds r c }

/-- A double as a value; a NaN is a new one. -/
def float (h : Heap) (x : Float) : Value × Heap :=
  if x.isNaN then (.scalar (.nan h.nextNan), { h with nextNan := h.nextNan + 1 })
  else (.scalar (.float x), h)

def kind (h : Heap) : Value → Kind
  | .scalar s => s.kind
  | .ref r => match h.cell r with
    | .list _ => .list
    | .object _ => .object

/-- Null, false, zero, and what is empty are false; all else is true. -/
def truth (h : Heap) : Value → Bool
  | .scalar s => match s with
    | .null => false
    | .bool b => b
    | .int n => n != 0
    | .float x => x != 0.0
    | .nan _ => true
    | .str s => s != ""
  | .ref r => match h.cell r with
    | .list xs => !xs.isEmpty
    | .object es => !es.isEmpty

end Heap

namespace Env

def get? (env : Env) (name : String) : Option Value := env.lookup name

/-- Bind a name: a bound one keeps its place, a new one goes last. -/
def set (env : Env) (name : String) (v : Value) : Env :=
  match env with
  | [] => [(name, v)]
  | (n, w) :: rest => if n == name then (n, v) :: rest else (n, w) :: set rest name v

end Env

end StepFlow
