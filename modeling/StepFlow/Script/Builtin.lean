/-
  StepFlow.Script.Builtin — the functions of the flow language. There are no others: a script
  cannot define one, and a variable with the name of a function is no function.

  Conversions (`str int float bool`), sizes and members (`len contains`), numbers (`abs min
  max round`) and texts (`lower upper`). Each checks how many arguments it gets, in its own
  words.
-/

import StepFlow.Script.Operator
import StepFlow.Text.Case
import StepFlow.Number.Numeral

namespace StepFlow

inductive Builtin where
  | len | str | int | float | bool | abs | min | max | round | lower | upper | contains
  deriving DecidableEq, Repr

namespace Builtin

def text : Builtin → String
  | .len => "len"
  | .str => "str"
  | .int => "int"
  | .float => "float"
  | .bool => "bool"
  | .abs => "abs"
  | .min => "min"
  | .max => "max"
  | .round => "round"
  | .lower => "lower"
  | .upper => "upper"
  | .contains => "contains"

def all : List Builtin :=
  [.len, .str, .int, .float, .bool, .abs, .min, .max, .round, .lower, .upper, .contains]

def ofText? (s : String) : Option Builtin := all.find? (·.text == s)

variable {α : Type}

private def typeTrouble (t : TypeTrouble) : Except Trouble α := throw (.type t)

private def arityTrouble (a : ArityTrouble) : Except Trouble α := throw (.type (.arity a))

/-- How many members a text, a list or an object has. -/
def size (h : Heap) : Value → Except Trouble Nat
  | .scalar (.str s) => pure s.length
  | .scalar s => typeTrouble (.noLength s.kind)
  | .ref r => match h.cell r with
    | .list xs => pure xs.length
    | .object es => pure es.length

/-! ## Conversions -/

def readInt (base : Nat) (s : String) : Except Trouble Int :=
  match Numeral.readInt base s.toList with
  | .ok n => pure n
  | .error .malformed => throw (.value (.intLiteral base s))
  | .error (.tooLong digits) => throw (.value (.tooLongToRead digits))

def toInt (h : Heap) : Value → Except Trouble Int
  | .scalar (.str s) => readInt 10 s
  | .scalar s => if s.isNumber then s.truncated else typeTrouble (.intArgument s.kind)
  | .ref r => typeTrouble (.intArgument (h.kind (.ref r)))

/-- The integer that an argument must be. -/
def integerArgument (h : Heap) (v : Value) : Except Trouble Int :=
  match v with
  | .scalar s => match s.toInt? with
    | some n => pure n
    | none => typeTrouble (.notInteger s.kind)
  | .ref _ => typeTrouble (.notInteger (h.kind v))

/-- The whole number that a text is in a base, 0 standing for the base that the text tells. -/
def toIntInBase (h : Heap) (v base : Value) : Except Trouble Int := do
  let b ← integerArgument h base
  if b ≠ 0 ∧ (b < 2 ∨ 36 < b) then throw (.value .baseRange)
  match v with
  | .scalar (.str s) => readInt b.toNat s
  | _ => typeTrouble .baseWithoutText

def toFloat : Value → Act Trouble Value
  | .scalar (.str s) => match Numeral.readFloat s.toList with
    | some x => Act.float x
    | none => throw (.value (.floatLiteral s))
  | .scalar (.float x) => pure (.scalar (.float x))
  | .scalar (.nan label) => pure (.scalar (.nan label))
  | .scalar s =>
    if s.isNumber then do Act.float (← Act.ofExcept s.toFloat)
    else throw (.type (.floatArgument s.kind))
  | .ref r => do throw (.type (.floatArgument ((← get).kind (.ref r))))

/-! ## Numbers -/

def absolute : Value → Act Trouble Value
  | .scalar (.float x) => Act.float x.abs
  | .scalar (.nan _) => Act.float (0.0 / 0.0)
  | .scalar s => match s.toInt? with
    | some n => pure (.int n.natAbs)
    | none => throw (.type (.absOperand s.kind))
  | .ref r => do throw (.type (.absOperand ((← get).kind (.ref r))))

/-- The members that a value is gone through by: of an object, its keys. -/
def members (h : Heap) : Value → Except Trouble (List Value)
  | .scalar (.str s) => pure (s.toList.map fun c => .str c.toString)
  | .scalar s => typeTrouble (.notIterable s.kind)
  | .ref r => match h.cell r with
    | .list xs => pure xs
    | .object es => pure (es.map fun e => .scalar e.1)

/-- The first value that no later one is beyond, in the order `op`. -/
def extreme (h : Heap) (op : OrderOp) (best : Value) : List Value → Except Trouble Value
  | [] => pure best
  | v :: vs => do extreme h op (if ← h.order op v best then v else best) vs

def extremeOf (h : Heap) (f : Builtin) (op : OrderOp) (args : List Value) : Except Trouble Value := do
  let vs ← match args with
    | [] => arityTrouble (.expectedAtLeast f.text 1 0)
    | [v] => members h v
    | vs => pure vs
  match vs with
  | [] => throw (.value (.emptySequence f.text))
  | v :: vs => extreme h op v vs

-- powers of naturals are the same ones whatever else is imported
attribute [local instance (high)] instPowNat

/-- A whole number to the nearest ten, hundred, …, a half to the even one. -/
def roundInt (n places : Int) : Int :=
  if 0 ≤ places then n
  else if Decimal.length n.natAbs + 1 < (-places).toNat then 0
  else
    let p := 10 ^ (-places).toNat
    let r : Int := Binary64.roundDiv n.natAbs p * p
    if n < 0 then -r else r

def roundFloat (x : Float) (places : Int) : Except Trouble Float :=
  match Binary64.parts x with
  | .finite negative m e =>
    if 323 < places then pure x
    else if places < -308 then pure (Binary64.zero negative)
    else
      let r := Binary64.roundPlaces negative m e places
      if r.isInf then throw (.overflow .rounded) else pure r
  | _ => pure x

/-- The nearest whole number, a half to the even one. -/
def roundWhole (s : Scalar) : Except Trouble Int :=
  match s with
  | .float x => match Binary64.parts x with
    | .finite negative m e =>
      let n : Int := Binary64.roundWhole m e
      pure (if negative then -n else n)
    | _ => throw (.overflow .infinityToInt)
  | .nan _ => throw (.value .nanToInt)
  | s => match s.toInt? with
    | some n => pure n
    | none => typeTrouble (.noRounding s.kind)

def rounded (v places : Value) : Act Trouble Value := do
  let h ← get
  match v with
  | .ref r => throw (.type (.noRounding (h.kind (.ref r))))
  | .scalar s =>
    if !s.isNumber then throw (.type (.noRounding s.kind))
    match places with
    | .scalar .null => return .int (← Act.ofExcept (roundWhole s))
    | places =>
      let p ← Act.ofExcept (integerArgument h places)
      match s with
      | .float x => Act.float (← Act.ofExcept (roundFloat x p))
      | .nan _ => Act.float (0.0 / 0.0)
      | s => return .int (roundInt (s.toInt?.getD 0) p)

/-! ## Members -/

def listHolds (h : Heap) (item : Value) : List Value → Except Trouble Bool
  | [] => pure false
  | x :: xs => do if ← h.same x item then pure true else listHolds h item xs

/-- Whether one text is part of another. -/
def isPart (part : List Char) : List Char → Bool
  | [] => part.isEmpty
  | c :: cs => part.isPrefixOf (c :: cs) || isPart part cs

def holds (h : Heap) (container item : Value) : Except Trouble Bool :=
  match container with
  | .scalar (.str s) => match item with
    | .scalar (.str t) => pure (isPart t.toList s.toList)
    | item => typeTrouble (.memberOfText (h.kind item))
  | .scalar s => typeTrouble (.noMembers s.kind)
  | .ref r => match h.cell r with
    | .list xs => listHolds h item xs
    | .object es => match item with
      | .scalar k => pure (lookupKey es k).isSome
      | .ref _ => typeTrouble (.unhashable (h.kind item))

/-! ## Calls -/

/-- The one argument of a function that names its parameter. -/
def onlyArgument (callee : String) : List Value → Except Trouble Value
  | [] => arityTrouble (.missing callee ["value"])
  | [v] => pure v
  | vs => arityTrouble (.surplus callee 1 vs.length)

/-- The one argument of a function that counts its arguments. -/
def soleArgument (f : Builtin) : List Value → Except Trouble Value
  | [v] => pure v
  | vs => arityTrouble (.exactlyOne f.text vs.length)

/-- The name by which functions without one of their own complain. -/
def unnamed : String := "<lambda>"

def cased (change : String → String) (args : List Value) : Act Trouble Value := do
  let v ← Act.ofExcept (onlyArgument unnamed args)
  return .str (change (← Act.look (·.plainText v)))

def apply (f : Builtin) (args : List Value) : Act Trouble Value := do
  match f with
  | .len =>
    let v ← Act.ofExcept (soleArgument f args)
    return .int (← Act.look (size · v))
  | .str =>
    let v ← Act.ofExcept (onlyArgument "_to_str" args)
    return .str (← Act.look (·.plainText v))
  | .int => match args with
    | [] => return .int 0
    | [v] => return .int (← Act.look (toInt · v))
    | [v, base] => return .int (← Act.look (toIntInBase · v base))
    | vs => throw (.type (.arity (.atMost f.text 2 vs.length)))
  | .float => match args with
    | [] => Act.float 0.0
    | [v] => toFloat v
    | vs => throw (.type (.arity (.expectedAtMost f.text 1 vs.length)))
  | .bool => match args with
    | [] => return .bool false
    | [v] => return .bool ((← get).truth v)
    | vs => throw (.type (.arity (.expectedAtMost f.text 1 vs.length)))
  | .abs => absolute (← Act.ofExcept (soleArgument f args))
  | .min => Act.look (extremeOf · f .lt args)
  | .max => Act.look (extremeOf · f .gt args)
  | .round => match args with
    | [] => throw (.type (.arity .missingNumber))
    | [v] => rounded v .null
    | [v, places] => rounded v places
    | vs => throw (.type (.arity (.atMost f.text 2 vs.length)))
  | .lower => cased Text.lowerText args
  | .upper => cased Text.upperText args
  | .contains => match args with
    | [] => throw (.type (.arity (.missing unnamed ["container", "item"])))
    | [_] => throw (.type (.arity (.missing unnamed ["item"])))
    | [c, v] => return .bool (← Act.look (holds · c v))
    | vs => throw (.type (.arity (.surplus unnamed 2 vs.length)))

end Builtin

end StepFlow
