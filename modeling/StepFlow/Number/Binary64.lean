/-
  StepFlow.Number.Binary64 — doubles as exact numbers: a finite double is a mantissa times a
  power of two, and the double nearest to a quotient is found in whole numbers.

  `Float` itself does the sums, differences, products and quotients of doubles. What mixes
  doubles with whole numbers of any size (comparison, conversion, remainder, rounding to
  decimal places) or with text is done here on `parts`, so that nothing is rounded twice.

  - `nearest` rounds a quotient of naturals to the nearest double, a half to the even one,
    and past the largest double to infinity.
  - `fmod` is exact: a remainder of two doubles is itself a double.
-/

namespace StepFlow.Binary64

-- powers of naturals are the same ones whatever else is imported
attribute [local instance (high)] instPowNat

inductive Parts where
  | nan
  | infinite (negative : Bool)
  /-- The number `mantissa * 2 ^ exponent`; zero has the mantissa zero and a sign. -/
  | finite (negative : Bool) (mantissa : Nat) (exponent : Int)
  deriving DecidableEq, Repr

def parts (x : Float) : Parts :=
  let word : Nat := x.toBits.toNat
  let negative := decide (2 ^ (63 : Nat) ≤ word)
  let biased : Nat := word / 2 ^ (52 : Nat) % 2 ^ (11 : Nat)
  let fraction : Nat := word % 2 ^ (52 : Nat)
  if biased = 2047 then (if fraction = 0 then .infinite negative else .nan)
  else if biased = 0 then .finite negative fraction (-1074)
  else .finite negative (2 ^ (52 : Nat) + fraction) ((biased : Int) - 1075)

def infinity (negative : Bool) : Float :=
  Float.ofBits (UInt64.ofNat ((if negative then 2 ^ (63 : Nat) else 0) + 2047 * 2 ^ (52 : Nat)))

def zero (negative : Bool) : Float :=
  Float.ofBits (UInt64.ofNat (if negative then 2 ^ (63 : Nat) else 0))

/-- The double of a mantissa of at most `2 ^ 53` and an exponent from -1074 on; infinity past
    the largest one. -/
def ofParts (negative : Bool) (mantissa : Nat) (exponent : Int) : Float :=
  let word := if mantissa < 2 ^ (52 : Nat) then mantissa
    else (exponent + 1075).toNat * 2 ^ (52 : Nat) + (mantissa - 2 ^ (52 : Nat))
  if 2047 * 2 ^ (52 : Nat) ≤ word then infinity negative
  else Float.ofBits (UInt64.ofNat ((if negative then 2 ^ (63 : Nat) else 0) + word))

/-- The whole number nearest to `num / den`, a half to the even one. -/
def roundDiv (num den : Nat) : Nat :=
  let q := num / den
  let r := num % den
  if 2 * r < den then q else if den < 2 * r then q + 1 else if q % 2 = 0 then q else q + 1

/-- The quotient `num / den / 2 ^ e` as numerator and denominator. -/
def scaled (num den : Nat) (e : Int) : Nat × Nat :=
  if 0 ≤ e then (num, den * 2 ^ e.toNat) else (num * 2 ^ (-e).toNat, den)

/-- The exponent at which `num / den` has a mantissa of 53 bits, or -1074. -/
def exponentOf (num den : Nat) : Int :=
  let e := (num.log2 : Int) - den.log2 - 52
  let s := scaled num den e
  max (-1074) (if s.1 / s.2 < 2 ^ (52 : Nat) then e - 1 else e)

/-- The double nearest to `num / den`, with the given sign. -/
def nearest (negative : Bool) (num den : Nat) : Float :=
  if num = 0 then zero negative
  else
    let e := exponentOf num den
    let s := scaled num den e
    ofParts negative (roundDiv s.1 s.2) e

/-- A finite double's magnitude as a quotient. -/
def ratio (mantissa : Nat) (exponent : Int) : Nat × Nat :=
  if 0 ≤ exponent then (mantissa * 2 ^ exponent.toNat, 1) else (mantissa, 2 ^ (-exponent).toNat)

def isNegative (x : Float) : Bool := decide (2 ^ (63 : Nat) ≤ x.toBits.toNat)

/-- The double nearest to a whole number, if there is a finite one. -/
def ofInt? (n : Int) : Option Float :=
  let x := nearest (decide (n < 0)) n.natAbs 1
  if x.isInf then none else some x

/-- The double nearest to `a / b`, if there is a finite one. -/
def quotient? (a b : Int) : Option Float :=
  let x := nearest (decide (a < 0) != decide (b < 0)) a.natAbs b.natAbs
  if x.isInf then none else some x

/-- The part before the point. -/
def truncate (mantissa : Nat) (exponent : Int) : Nat :=
  let r := ratio mantissa exponent
  r.1 / r.2

/-- How a whole number compares with a double; with NaN it does not. -/
def compareInt (n : Int) (x : Float) : Option Ordering :=
  match parts x with
  | .nan => none
  | .infinite negative => some (if negative then .gt else .lt)
  | .finite negative m e =>
    let r := ratio m e
    some (compare (n * r.2) (if negative then -(r.1 : Int) else r.1))

/-- The remainder of the quotient cut toward zero, with the sign of `x`; `y` is not zero. -/
def fmod (x y : Float) : Float :=
  match parts x, parts y with
  | .finite negative mx ex, .finite _ my ey =>
    let e := min ex ey
    let r := mx * 2 ^ (ex - e).toNat % (my * 2 ^ (ey - e).toNat)
    let s := ratio r e
    nearest negative s.1 s.2
  | .finite .., .infinite _ => x
  | _, _ => (0.0 / 0.0)

/-- The remainder with the sign of `y`: of the division that rounds down. -/
def modulo (x y : Float) : Float :=
  let r := fmod x y
  if r == 0.0 then zero (isNegative y)
  else if decide (y < 0.0) != decide (r < 0.0) then r + y
  else r

/-- The whole number nearest to a finite double, a half to the even one. -/
def roundWhole (mantissa : Nat) (exponent : Int) : Nat :=
  let r := ratio mantissa exponent
  roundDiv r.1 r.2

/-- The double nearest to the number with `places` decimal places that is nearest to
    `mantissa * 2 ^ exponent`, a half to the even one. Negative places are tens, hundreds, … -/
def roundPlaces (negative : Bool) (mantissa : Nat) (exponent places : Int) : Float :=
  let r := ratio mantissa exponent
  if 0 ≤ places then
    let p := 10 ^ places.toNat
    nearest negative (roundDiv (r.1 * p) r.2) p
  else
    let p := 10 ^ (-places).toNat
    nearest negative (roundDiv r.1 (r.2 * p) * p) 1

end StepFlow.Binary64
