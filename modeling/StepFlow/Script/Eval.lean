/-
  StepFlow.Script.Eval — the value of an expression.

  An expression sees the variables and the heap. It makes new containers, for lists, objects
  and joined lists, and changes none. Operands are evaluated from left to right; `and` and
  `or` evaluate the right one only if the left does not decide, and give the operand that
  did.

  What an operation fails with becomes an error of the language: a wrong type at an operator
  names the operator and both types, a wrong type or value in a call names the function.
-/

import StepFlow.Script.Builtin
import StepFlow.Script.Fault

namespace StepFlow.Script

variable {α : Type}

private def fail (e : RunError) : Act Fault α := throw (.run e)

/-- A computation whose trouble is the fault that `name` makes of it. -/
def lift (name : Trouble → Fault) (a : Act Trouble α) : Act Fault α := ExceptT.adapt name a

/-- An operation that meets a wrong type or a zero names itself. -/
def operatorFault (op : BinaryOp) (left right : Kind) : Trouble → Fault
  | .type _ => .run (.operands op.text left right)
  | .zeroDivision => .run .divisionByZero
  | t => .trouble t

def operate (op : BinaryOp) (a b : Value) : Act Fault Value := do
  let h ← get
  lift (operatorFault op (h.kind a) (h.kind b)) (op.apply a b)

/-- The operator of that spelling, applied. -/
def operateNamed (op : String) (a b : Value) : Act Fault Value :=
  match BinaryOp.ofText? op with
  | some op => operate op a b
  | none => fail (.unknownOperator op)

def callFault (name : String) : Trouble → Fault
  | .type t => .run (.call name (.type t))
  | .value v => .run (.call name (.value v))
  | t => .trouble t

def sign (op : UnaryOp) (v : Value) : Act Fault Value := do
  let refuse : Act Fault Value := do fail (.unaryOperand op.text ((← get).kind v))
  match op with
  | .not => return .bool (!(← get).truth v)
  | .neg => match v with
    | .scalar (.float x) => Act.float (-x)
    | .scalar (.nan _) => Act.float (0.0 / 0.0)
    | .scalar s => match s.toInt? with
      | some n => return .int (-n)
      | none => refuse
    | .ref _ => refuse
  | .pos => match v with
    | .scalar (.float x) => return .scalar (.float x)
    | .scalar (.nan label) => return .scalar (.nan label)
    | .scalar s => match s.toInt? with
      | some n => return .int n
      | none => refuse
    | .ref _ => refuse

/-- The place that an index names in a sequence: from the end, if it is negative. -/
def place? (length : Nat) (i : Int) : Option Nat :=
  if 0 ≤ i then (if i < length then some i.toNat else none)
  else if -(length : Int) ≤ i then some (i + length).toNat
  else none

def outOfRange (i : Int) : Act Fault α :=
  match intText i with
  | .ok s => fail (.outOfRange s)
  | .error t => throw (.trouble t)

/-- The whole number that an index must be; a boolean is none. -/
def indexOf (v : Value) : Act Fault Int := do
  match v with
  | .scalar (.int i) => pure i
  | v => fail (.indexType ((← get).kind v))

def readProperty (container : Value) (name : String) : Act Fault Value := do
  let h ← get
  match container with
  | .ref r => match h.cell r with
    | .object es => match lookupKey es (.str name) with
      | some v => pure v
      | none => fail (.noProperty name)
    | .list _ => fail (.noProperties name .list)
  | .scalar s => fail (.noProperties name s.kind)

def readIndex (container key : Value) : Act Fault Value := do
  let h ← get
  match container with
  | .ref r => match h.cell r with
    | .object es => match key with
      | .scalar k => match lookupKey es k with
        | some v => pure v
        | none => match k.display with
          | .ok s => fail (.noKey s)
          | .error t => throw (.trouble t)
      | .ref _ => fail (.keyType (h.kind key))
    | .list xs =>
      let i ← indexOf key
      match (place? xs.length i).bind (xs[·]?) with
      | some v => pure v
      | none => outOfRange i
  | .scalar (.str s) =>
    let i ← indexOf key
    let cs := s.toList
    match (place? cs.length i).bind (cs[·]?) with
    | some c => pure (.str c.toString)
    | none => outOfRange i
  | .scalar s => fail (.notIndexable s.kind)

/-- The key of an object that a value is. -/
def scalarKey (v : Value) : Act Fault Scalar := do
  match v with
  | .scalar k => pure k
  | v => fail (.keyNotScalar ((← get).kind v))

mutual

def eval (env : Env) : Expr → Act Fault Value
  | .literal s => pure (.scalar s)
  | .name n => match env.get? n with
    | some v => pure v
    | none => fail (.unknownVariable n)
  | .member obj n => do
    let c ← eval env obj
    readProperty c n
  | .index obj key => do
    let c ← eval env obj
    let k ← eval env key
    readIndex c k
  | .call n args => match Builtin.ofText? n with
    | none => fail (.unknownFunction n)
    | some f => do
      let vs ← evalAll env args
      lift (callFault n) (f.apply vs)
  | .list xs => do
    let vs ← evalAll env xs
    Act.alloc (.list vs)
  | .object ps => do
    let es ← evalPairs env [] ps
    Act.alloc (.object es)
  | .unary op e => do
    let v ← eval env e
    sign op v
  | .binary op l r => do
    let a ← eval env l
    let b ← eval env r
    operate op a b
  | .logical op l r => do
    let a ← eval env l
    let h ← get
    if op.decided (h.truth a) then pure a else eval env r

def evalAll (env : Env) : List Expr → Act Fault (List Value)
  | [] => pure []
  | e :: es => do
    let v ← eval env e
    let vs ← evalAll env es
    pure (v :: vs)

/-- The entries of an object literal, after those before them. -/
def evalPairs (env : Env) (entries : List (Scalar × Value)) :
    List (Expr × Expr) → Act Fault (List (Scalar × Value))
  | [] => pure entries
  | (ke, ve) :: ps => do
    let k ← eval env ke
    let k ← scalarKey k
    let v ← eval env ve
    evalPairs env (assignKey entries k v) ps

end

end StepFlow.Script
