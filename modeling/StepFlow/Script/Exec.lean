/-
  StepFlow.Script.Exec — the effect of a script on the variables and the heap.

  Statements run in turn until one fails. An assignment evaluates its value, for an augmented
  one the target as well, then the container and the index that it assigns to; writing is
  the last thing it does. Read-only names cannot be bound, though what they stand for can
  change.
-/

import StepFlow.Script.Eval
import StepFlow.Script.Parse

namespace StepFlow.Script

/-- What a script works on. -/
structure Memory where
  env : Env
  heap : Heap

abbrev Exec := ExceptT Fault (StateM Memory)

/-- A computation that sees the variables and works on the heap. -/
def onHeap {α : Type} (f : Env → Act Fault α) : Exec α := ExceptT.mk do
  let m ← get
  let (r, heap) := (f m.env).run m.heap
  set { m with heap }
  pure r

def bind (readonly : List String) (name : String) (v : Value) : Exec Unit := do
  if readonly.contains name then throw (.run (.readOnly name))
  modify fun m => { m with env := m.env.set name v }

def write (r : Ref) (c : Cell) : Exec Unit := modify fun m => { m with heap := m.heap.write r c }

def storeProperty (container : Value) (name : String) (v : Value) : Exec Unit := do
  let h := (← get).heap
  match container with
  | .ref r => match h.cell r with
    | .object es => write r (.object (assignKey es (.str name) v))
    | .list _ => throw (.run (.propertyTarget name .list))
  | .scalar s => throw (.run (.propertyTarget name s.kind))

def storeIndex (container key v : Value) : Exec Unit := do
  let h := (← get).heap
  match container with
  | .ref r => match h.cell r with
    | .object es => match key with
      | .scalar k => write r (.object (assignKey es k v))
      | .ref _ => throw (.run (.keyType (h.kind key)))
    | .list xs => do
      let i ← onHeap fun _ => indexOf key
      match place? xs.length i with
      | some n => write r (.list (xs.set n v))
      | none => onHeap fun _ => outOfRange i
  | .scalar s => throw (.run (.indexTarget s.kind))

/-- Assign a value to what a target stands for. -/
def store (readonly : List String) (target : Target) (v : Value) : Exec Unit := do
  match target with
  | .name n => bind readonly n v
  | .member obj n =>
    let c ← onHeap (eval · obj)
    storeProperty c n v
  | .index obj key =>
    let c ← onHeap (eval · obj)
    let k ← onHeap (eval · key)
    storeIndex c k v

/-- The value that an assignment assigns. -/
def assigned (target : Target) (op : AssignOp) (value : Expr) : Exec Value := do
  let v ← onHeap (eval · value)
  match op.binary? with
  | none => pure v
  | some op => do
    let old ← onHeap (eval · target.expr)
    onHeap fun _ => operate op old v

def execStatement (readonly : List String) : Statement → Exec Unit
  | .expr e => do
    let _ ← onHeap (eval · e)
  | .assign target op value => do
    let v ← assigned target op value
    store readonly target v

def exec (readonly : List String) : List Statement → Exec Unit
  | [] => pure ()
  | s :: ss => do
    execStatement readonly s
    exec readonly ss

/-- Read a script and run it. A text that is no script changes nothing. -/
def execute (text : String) (readonly : List String) (m : Memory) : Except Fault Unit × Memory :=
  match parseScript text with
  | .error f => (.error f, m)
  | .ok ss => (exec readonly ss).run m

/-- Read an expression and evaluate it. -/
def evaluate (text : String) (env : Env) : Act Fault Value := do
  let e ← Act.ofExcept (parseExpression text)
  eval env e

end StepFlow.Script
