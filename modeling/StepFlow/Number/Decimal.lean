/-
  StepFlow.Number.Decimal — decimal text of numbers: the fewest digits that read back, a given
  number of places or digits, and the limit on the length of a whole number's text.

  A written number is its significant digits and the place of the point: `⟨[1, 2], 1⟩` is
  1.2 and `⟨[1, 2], -1⟩` is 0.012.

  - `shortest` tries 1, 2, … 17 digits and takes the first grid of decimals with a point
    that reads back as the same double; of two such points the nearer, of two as near the
    even one.
  - `toPlaces` and `toDigits` round the exact value, a half to the even neighbour.
  - A whole number is written in at most `digitLimit` digits.
-/

import StepFlow.Number.Binary64

namespace StepFlow.Decimal

open Binary64 (ratio roundDiv parts Parts)

-- powers of naturals are the same ones whatever else is imported
attribute [local instance (high)] instPowNat

/-- The number of decimal digits; zero has one. -/
def length (n : Nat) : Nat := if n < 10 then 1 else length (n / 10) + 1

def digitsText (n : Nat) : List Char := Nat.toDigits 10 n

/-- The `k` with `10 ^ (k - 1) ≤ num / den < 10 ^ k`. -/
def pointOf (num den : Nat) : Int :=
  if den ≤ num then (length (num / den) : Int)
  else
    let l := length (den / num)
    if den ≤ num * 10 ^ (l - 1) then 2 - (l : Int) else 1 - (l : Int)

/-- The quotient `num / den / 10 ^ p` as numerator and denominator. -/
def shifted (num den : Nat) (p : Int) : Nat × Nat :=
  if 0 ≤ p then (num, den * 10 ^ p.toNat) else (num * 10 ^ (-p).toNat, den)

structure Written where
  digits : List Char
  point : Int
  deriving DecidableEq, Repr

/-- The digits of `n`, whose last one stands at `10 ^ p`, without zeros at the end. -/
def Written.ofGrid (n : Nat) (p : Int) : Written :=
  let ds := digitsText n
  let kept := (ds.reverse.dropWhile (· == '0')).reverse
  if kept.isEmpty then ⟨['0'], 1⟩ else ⟨kept, ds.length + p⟩

/-- The points of the decimal grid `10 ^ p` beside `v` that lie in the interval of numbers read
    as `v`, the best one; all in units of `1 / den`, the interval closed iff `closed`. -/
def gridPoint? (low v high den : Nat) (closed : Bool) (p : Int) : Option Nat :=
  let s := shifted v den p
  let d := s.1 / s.2
  let inside (c : Nat) : Bool :=
    let g := if 0 ≤ p then c * 10 ^ p.toNat * den else c * den
    let at_ (x : Nat) : Nat := if 0 ≤ p then x else x * 10 ^ (-p).toNat
    if closed then decide (at_ low ≤ g) && decide (g ≤ at_ high)
    else decide (at_ low < g) && decide (g < at_ high)
  let twice := 2 * (s.1 % s.2)
  match inside d, inside (d + 1) with
  | true, true => some (if twice < s.2 || (twice == s.2 && d % 2 == 0) then d else d + 1)
  | true, false => some d
  | false, true => some (d + 1)
  | false, false => none

/-- The fewest digits that read back as `mantissa * 2 ^ exponent`, which is not zero. -/
def shortest (mantissa : Nat) (exponent : Int) : Written :=
  let r := ratio 1 (exponent - 2)
  let v := 4 * mantissa * r.1
  let low := (4 * mantissa - (if mantissa = 2 ^ (52 : Nat) && decide (-1074 < exponent) then 1 else 2)) * r.1
  let high := (4 * mantissa + 2) * r.1
  let k := pointOf v r.2
  let grid (n : Nat) : Option Written :=
    (gridPoint? low v high r.2 (mantissa % 2 == 0) (k - (n + 1))).map (Written.ofGrid · (k - (n + 1)))
  ((List.range 17).findSome? grid).getD (Written.ofGrid (v / r.2) 0)

/-- The whole number of units `10 ^ (-places)` nearest to `mantissa * 2 ^ exponent`. -/
def toPlaces (mantissa : Nat) (exponent : Int) (places : Nat) : Nat :=
  let r := ratio mantissa exponent
  roundDiv (r.1 * 10 ^ places) r.2

/-- The `count` leading digits of a number that is not zero, rounded, and the place of the point. -/
def toDigits (mantissa : Nat) (exponent : Int) (count : Nat) : List Char × Int :=
  let r := ratio mantissa exponent
  let k := pointOf r.1 r.2
  let s := shifted r.1 r.2 (k - count)
  let ds := digitsText (roundDiv s.1 s.2)
  if count < ds.length then (ds.take count, k + 1) else (ds, k)

/-- An exponent with its sign and at least two digits. -/
def exponentText (e : Int) : List Char :=
  let ds := digitsText e.natAbs
  (if e < 0 then '-' else '+') :: (if ds.length < 2 then '0' :: ds else ds)

/-- The text of a double: positional for exponents from -4 to 15, with at least one place. -/
def floatText (x : Float) : String :=
  match parts x with
  | .nan => "nan"
  | .infinite negative => if negative then "-inf" else "inf"
  | .finite negative m e =>
    let w := if m = 0 then ⟨['0'], 1⟩ else shortest m e
    let n := w.digits.length
    let body :=
      if w.point < -3 ∨ 16 < w.point then
        w.digits.take 1 ++ (if n = 1 then [] else '.' :: w.digits.drop 1) ++ 'e' :: exponentText (w.point - 1)
      else if w.point ≤ 0 then
        '0' :: '.' :: (List.replicate (-w.point).toNat '0' ++ w.digits)
      else if w.point < n then
        w.digits.take w.point.toNat ++ '.' :: w.digits.drop w.point.toNat
      else
        w.digits ++ List.replicate (w.point.toNat - n) '0' ++ ['.', '0']
    String.ofList (if negative then '-' :: body else body)

/-- The most digits that a whole number's text may have, read or written. -/
def digitLimit : Nat := 4300

/-- The decimal text of a whole number, if it is not too long. -/
def intText? (n : Int) : Option String :=
  if n.natAbs < 10 ^ (18 : Nat) ∨ n.natAbs < 10 ^ digitLimit then some (toString n) else none

end StepFlow.Decimal
