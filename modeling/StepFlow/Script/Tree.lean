/-
  StepFlow.Script.Tree — expressions and statements.

  A statement is an expression or an assignment. What an assignment assigns to is a
  variable, a property or an entry (`Target`), so a script that was read holds no other one.
-/

import StepFlow.Value.Equal

namespace StepFlow

inductive BinaryOp where
  | add | sub | mul | div | mod | eq | ne
  | order (op : OrderOp)
  deriving DecidableEq, Repr

def BinaryOp.text : BinaryOp → String
  | .add => "+"
  | .sub => "-"
  | .mul => "*"
  | .div => "/"
  | .mod => "%"
  | .eq => "=="
  | .ne => "!="
  | .order op => op.text

def BinaryOp.all : List BinaryOp :=
  [.add, .sub, .mul, .div, .mod, .eq, .ne, .order .lt, .order .le, .order .gt, .order .ge]

def BinaryOp.ofText? (s : String) : Option BinaryOp := BinaryOp.all.find? (·.text == s)

inductive UnaryOp where
  | not | neg | pos
  deriving DecidableEq, Repr

def UnaryOp.text : UnaryOp → String
  | .not => "not"
  | .neg => "-"
  | .pos => "+"

inductive LogicalOp where
  | and | or
  deriving DecidableEq, Repr

def LogicalOp.text : LogicalOp → String
  | .and => "and"
  | .or => "or"

/-- Whether an operand of that truth makes the other one needless. -/
def LogicalOp.decided : LogicalOp → Bool → Bool
  | .and, b => !b
  | .or, b => b

inductive Expr where
  | literal (s : Scalar)
  | name (n : String)
  | member (obj : Expr) (name : String)
  | index (obj : Expr) (key : Expr)
  | call (name : String) (args : List Expr)
  | list (items : List Expr)
  | object (pairs : List (Expr × Expr))
  | unary (op : UnaryOp) (operand : Expr)
  | binary (op : BinaryOp) (left right : Expr)
  | logical (op : LogicalOp) (left right : Expr)

inductive Target where
  | name (n : String)
  | member (obj : Expr) (name : String)
  | index (obj : Expr) (key : Expr)

/-- The target as the expression that reads it. -/
def Target.expr : Target → Expr
  | .name n => .name n
  | .member obj n => .member obj n
  | .index obj key => .index obj key

def Expr.target? : Expr → Option Target
  | .name n => some (.name n)
  | .member obj n => some (.member obj n)
  | .index obj key => some (.index obj key)
  | _ => none

inductive AssignOp where
  | set | add | sub | mul | div
  deriving DecidableEq, Repr

def AssignOp.text : AssignOp → String
  | .set => "="
  | .add => "+="
  | .sub => "-="
  | .mul => "*="
  | .div => "/="

/-- The operation of an augmented assignment. -/
def AssignOp.binary? : AssignOp → Option BinaryOp
  | .set => none
  | .add => some .add
  | .sub => some .sub
  | .mul => some .mul
  | .div => some .div

inductive Statement where
  | assign (target : Target) (op : AssignOp) (value : Expr)
  | expr (e : Expr)

end StepFlow
