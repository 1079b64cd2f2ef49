/-
  StepFlow.Value.Number — values as numbers: booleans count as 0 and 1, and numbers of
  different types compare by their exact values.

  A whole number of any size can be compared with a double; it can be converted to one only
  if the nearest double is finite.
-/

import StepFlow.Value.Trouble

namespace StepFlow.Scalar

/-- The whole number that a boolean or an integer is. -/
def toInt? : Scalar → Option Int
  | .bool b => some (if b then 1 else 0)
  | .int n => some n
  | _ => none

def isNumber : Scalar → Bool
  | .bool _ | .int _ | .float _ | .nan _ => true
  | _ => false

/-- How two numbers compare; a NaN does not. -/
def compareNumbers (a b : Scalar) : Option Ordering :=
  match a, b with
  | .float x, .float y => if x == y then some .eq else if x < y then some .lt else some .gt
  | .float x, b => b.toInt?.bind fun n => (Binary64.compareInt n x).map Ordering.swap
  | a, .float y => a.toInt?.bind fun n => Binary64.compareInt n y
  | a, b => a.toInt?.bind fun n => b.toInt?.map fun m => compare n m

/-- The nearest double. -/
def toFloat (s : Scalar) : Except Trouble Float :=
  match s with
  | .float x => pure x
  | .nan _ => pure (0.0 / 0.0)
  | s => match s.toInt? with
    | none => throw (.type .operands)
    | some n => match Binary64.ofInt? n with
      | some x => pure x
      | none => throw (.overflow .intToFloat)

/-- The whole part of a number. -/
def truncated (s : Scalar) : Except Trouble Int :=
  match s with
  | .float x => match Binary64.parts x with
    | .finite negative m e =>
      let n : Int := Binary64.truncate m e
      pure (if negative then -n else n)
    | _ => throw (.overflow .infinityToInt)
  | .nan _ => throw (.value .nanToInt)
  | s => match s.toInt? with
    | some n => pure n
    | none => throw (.type .operands)

end StepFlow.Scalar
