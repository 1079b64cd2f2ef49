/-
  StepFlow.Number.Numeral — whole numbers and doubles read from text.

  Both readers first write decimal digits of other scripts as ASCII ones (`plain`), allow
  blanks at the ends and single underscores between digits.

  - `readInt` takes a base from 2 to 36, or 0 for a base told by `0x`, `0o` or `0b`. A
    numeral whose base is no power of two has at most `Decimal.digitLimit` digits.
  - `readFloat` takes digits with an optional point and exponent, or the names of infinity
    and NaN, and rounds to the nearest double.
-/

import StepFlow.Number.Decimal
import StepFlow.Text.Blank
import StepFlow.Text.Numeric

namespace StepFlow.Numeral

open Text (isBlank isAsciiBlank decimalValue? trim)

/-- Decimal digits of all scripts as ASCII digits and blanks as spaces, up to the first other
    character beyond ASCII, which becomes a `?` that no numeral holds. -/
def plainFrom : List Char → List Char
  | [] => []
  | c :: cs =>
    if c.toNat < 127 then c :: plainFrom cs
    else if isBlank c then ' ' :: plainFrom cs
    else match decimalValue? c with
      | some d => Char.ofNat (48 + d) :: plainFrom cs
      | none => ['?']

/-- A text of ASCII alone is taken as it is. -/
def plain (cs : List Char) : List Char :=
  if cs.all (fun c => decide (c.toNat < 128)) then cs else plainFrom cs

def digitValue (c : Char) : Nat :=
  if c.isDigit then c.toNat - 48
  else if c.isLower then c.toNat - 87
  else if c.isUpper then c.toNat - 55
  else 36

def natOf (base : Nat) (digits : List Char) : Nat :=
  digits.foldl (fun n c => n * base + digitValue c) 0

inductive Malformed where
  | malformed
  | tooLong (digits : Nat)
  deriving DecidableEq, Repr

/-- Underscores stand one at a time between digits. -/
def underscoresOk : List Char → Bool
  | [] => true
  | ['_'] => false
  | '_' :: '_' :: _ => false
  | _ :: cs => underscoresOk cs

def isBinary (base : Nat) : Bool := [2, 4, 8, 16, 32].contains base

/-- Drop the mark of the base, and one underscore after it. -/
def dropMark (base : Nat) (cs : List Char) : List Char :=
  let after (marks : List Char) : List Char :=
    match cs with
    | '0' :: m :: r => if marks.contains m then (match r with | '_' :: r' => r' | _ => r) else cs
    | _ => cs
  if base = 16 then after ['x', 'X'] else if base = 8 then after ['o', 'O']
  else if base = 2 then after ['b', 'B'] else cs

/-- The base that a numeral tells, and whether it may only be zero: `010` tells none. -/
def toldBase : List Char → Nat × Bool
  | '0' :: 'x' :: _ | '0' :: 'X' :: _ => (16, false)
  | '0' :: 'o' :: _ | '0' :: 'O' :: _ => (8, false)
  | '0' :: 'b' :: _ | '0' :: 'B' :: _ => (2, false)
  | '0' :: _ => (10, true)
  | _ => (10, false)

def readNat (base : Nat) (onlyZero : Bool) (cs : List Char) : Except Malformed Nat :=
  let body := dropMark base cs
  let run := body.takeWhile fun c => c == '_' || decide (digitValue c < base)
  let digits := run.filter (· != '_')
  if run.head? == some '_' || !underscoresOk run then .error .malformed
  else if !isBinary base && decide (Decimal.digitLimit < digits.length) then .error (.tooLong digits.length)
  else if digits.isEmpty then .error .malformed
  else if onlyZero && natOf base digits != 0 then .error .malformed
  else if ((body.drop run.length).dropWhile isAsciiBlank).isEmpty then .ok (natOf base digits)
  else .error .malformed

def readInt (base : Nat) (text : List Char) : Except Malformed Int :=
  let cs := (plain text).dropWhile isAsciiBlank
  let (negative, cs) : Bool × List Char := match cs with
    | '+' :: r => (false, r)
    | '-' :: r => (true, r)
    | _ => (false, cs)
  let (base, onlyZero) := if base = 0 then toldBase cs else (base, false)
  (readNat base onlyZero cs).map fun n => if negative then -(n : Int) else n

-- powers of naturals are the same ones whatever else is imported
attribute [local instance (high)] instPowNat

/-- The double nearest to `digits * 10 ^ exponent`. -/
def ofDecimal (negative : Bool) (digits : Nat) (exponent : Int) : Float :=
  if digits = 0 then Binary64.zero negative
  else
    let size := Decimal.length digits + exponent
    if 400 < size then Binary64.infinity negative
    else if size < -400 then Binary64.zero negative
    else if 0 ≤ exponent then Binary64.nearest negative (digits * 10 ^ exponent.toNat) 1
    else Binary64.nearest negative digits (10 ^ (-exponent).toNat)

/-- The exponent at the end of a numeral; zero when there is none. -/
def readExponent : List Char → Option Int
  | [] => some 0
  | c :: cs =>
    if c == 'e' || c == 'E' then
      let (negative, ds) : Bool × List Char := match cs with
        | '+' :: r => (false, r)
        | '-' :: r => (true, r)
        | _ => (false, cs)
      if ds.isEmpty || !ds.all Char.isDigit then none
      else some (if negative then -(natOf 10 ds : Int) else natOf 10 ds)
    else none

/-- Digits with an optional point, at least one in all, and an optional exponent. -/
def readUnsigned (negative : Bool) (cs : List Char) : Option Float :=
  let whole := cs.takeWhile Char.isDigit
  let rest := cs.drop whole.length
  let (places, rest) : List Char × List Char := match rest with
    | '.' :: r => (r.takeWhile Char.isDigit, r.dropWhile Char.isDigit)
    | _ => ([], rest)
  if whole.isEmpty && places.isEmpty then none
  else (readExponent rest).map fun e =>
    ofDecimal negative (natOf 10 (whole ++ places)) (e - places.length)

/-- A sign, then a number or a name. -/
def readSigned (cs : List Char) : Option Float :=
  let (negative, body) : Bool × List Char := match cs with
    | '+' :: r => (false, r)
    | '-' :: r => (true, r)
    | _ => (false, cs)
  let name := String.ofList (body.map Char.toLower)
  if name == "inf" || name == "infinity" then some (Binary64.infinity negative)
  else if name == "nan" then some (0.0 / 0.0)
  else readUnsigned negative body

/-- Underscores stand between two digits. -/
def betweenDigits : List Char → Bool
  | [] => true
  | a :: cs => match cs with
    | [] => a != '_'
    | b :: _ => (a != '_' || b.isDigit) && (b != '_' || a.isDigit) && betweenDigits cs

def readFloat (text : List Char) : Option Float :=
  let cs := trim isAsciiBlank (plain text)
  if cs.contains '_' then
    if cs.head? != some '_' && betweenDigits cs then readSigned (cs.filter (· != '_')) else none
  else readSigned cs

end StepFlow.Numeral
