/-
  StepFlow.Script.Operator — the operators of the flow language on values.

  An operation may make new values on the heap: a list, or a NaN, which has an identity. It
  never changes what is there. The heap is kept when an operation fails.
  - `+ - * / %` calculate with whole numbers as long as both operands are such, except `/`,
    which is the nearest double; with a double, both become doubles.
  - `+` joins texts and lists, `*` repeats them, `%` fills a template.
  - `%` has the sign of the divisor.
-/

import StepFlow.Value.Equal
import StepFlow.Value.Template
import StepFlow.Script.Tree

namespace StepFlow

/-- A computation on the heap that may fail with an `ε`. -/
abbrev Act (ε : Type) := ExceptT ε (StateM Heap)

namespace Act

variable {ε : Type}

def ofExcept {α : Type} (e : Except ε α) : Act ε α := ExceptT.mk (pure e)

/-- What a look at the heap gives. -/
def look {α : Type} (f : Heap → Except ε α) : Act ε α := do ofExcept (f (← get))

def alloc (c : Cell) : Act ε Value := modifyGet fun h => h.alloc c

def float (x : Float) : Act ε Value := modifyGet fun h => h.float x

end Act

namespace Operator

/-- Whole numbers, or else doubles. -/
def arithmetic (ints : Int → Int → Act Trouble Value) (floats : Float → Float → Act Trouble Value) :
    Value → Value → Act Trouble Value
  | .scalar a, .scalar b =>
    match a.toInt?, b.toInt? with
    | some n, some m => ints n m
    | _, _ =>
      if a.isNumber && b.isNumber then do
        let x ← Act.ofExcept a.toFloat
        let y ← Act.ofExcept b.toFloat
        floats x y
      else throw (.type .operands)
  | _, _ => throw (.type .operands)

def add (a b : Value) : Act Trouble Value := do
  match a, b with
  | .scalar (.str s), .scalar (.str t) => pure (.str (s ++ t))
  | .ref r, .ref s =>
    let h ← get
    match h.cell r, h.cell s with
    | .list xs, .list ys => Act.alloc (.list (xs ++ ys))
    | _, _ => throw (.type .operands)
  | a, b => arithmetic (fun n m => pure (.int (n + m))) (fun x y => Act.float (x + y)) a b

def sub : Value → Value → Act Trouble Value :=
  arithmetic (fun n m => pure (.int (n - m))) (fun x y => Act.float (x - y))

-- powers of naturals are the same ones whatever else is imported
attribute [local instance (high)] instPowNat

/-- The number of indexes there are on either side of zero. -/
def indexLimit : Nat := 2 ^ (63 : Nat)

/-- How often to repeat: not at all for a negative number; past the largest index, trouble. -/
def repetitions (n : Int) : Except Trouble Nat :=
  if -(indexLimit : Int) ≤ n ∧ n < indexLimit then pure n.toNat else throw (.overflow .repetition)

def repeatList {α : Type} (xs : List α) (n : Nat) : List α :=
  if xs.isEmpty then [] else (List.replicate n xs).flatten

def repeated (v : Value) (n : Int) : Act Trouble Value := do
  match v with
  | .scalar (.str s) =>
    let k ← Act.ofExcept (repetitions n)
    if indexLimit ≤ k * s.length then throw (.overflow .repeatedText)
    pure (.str (String.ofList (repeatList s.toList k)))
  | .ref r =>
    match (← get).cell r with
    | .list xs =>
      let k ← Act.ofExcept (repetitions n)
      Act.alloc (.list (repeatList xs k))
    | .object _ => throw (.type .operands)
  | _ => throw (.type .operands)

def isSequence : Value → Bool
  | .scalar (.str _) | .ref _ => true
  | _ => false

def mul (a b : Value) : Act Trouble Value :=
  let count? : Value → Option Int
    | .scalar s => s.toInt?
    | .ref _ => none
  match isSequence a, count? b, isSequence b, count? a with
  | true, some n, _, _ => repeated a n
  | _, _, true, some n => repeated b n
  | _, _, _, _ => arithmetic (fun n m => pure (.int (n * m))) (fun x y => Act.float (x * y)) a b

def div : Value → Value → Act Trouble Value :=
  arithmetic
    (fun n m =>
      if m = 0 then throw .zeroDivision
      else match Binary64.quotient? n m with
        | some x => Act.float x
        | none => throw (.overflow .quotient))
    (fun x y => if y == 0.0 then throw .zeroDivision else Act.float (x / y))

def mod (a b : Value) : Act Trouble Value :=
  match a with
  | .scalar (.str s) => do
    let t ← Act.look fun h => Template.fill h s b
    pure (.str t)
  | a =>
    arithmetic (fun n m => if m = 0 then throw .zeroDivision else pure (.int (Int.fmod n m)))
      (fun x y => if y == 0.0 then throw .zeroDivision else Act.float (Binary64.modulo x y)) a b

end Operator

namespace BinaryOp

def apply (op : BinaryOp) (a b : Value) : Act Trouble Value :=
  match op with
  | .add => Operator.add a b
  | .sub => Operator.sub a b
  | .mul => Operator.mul a b
  | .div => Operator.div a b
  | .mod => Operator.mod a b
  | .eq => return .bool (← Act.look (·.equal a b))
  | .ne => return .bool (!(← Act.look (·.equal a b)))
  | .order op => return .bool (← Act.look (·.order op a b))

end BinaryOp

end StepFlow
