/-
  StepFlow.Value.Template — templates: a text with conversions such as `%d` or `%-8.3f`,
  filled with a value by the operator `%`.

  A conversion is `%`, an optional key in parentheses, flags, a width, a precision, a length
  letter without meaning and the conversion letter. A width or precision `*` is taken from
  the arguments.
  - There is one argument, the value itself; `%(key)s` puts an entry of the object in its
    place. Taking a second one is trouble, and so is leaving it untaken, unless the value is a
    list or an object.
  - `d i u o x X` write whole numbers, `e f g` and their capitals doubles, `c` one character,
    `s r a` the text of any value; `%%` is a percent sign.
-/

import StepFlow.Value.Display
import StepFlow.Value.Number

namespace StepFlow.Template

open Decimal (digitsText exponentText)

structure Spec where
  left : Bool
  plus : Bool
  blank : Bool
  alternate : Bool
  zero : Bool
  width : Option Nat
  precision : Option Nat
  letter : Char

/-- The argument that a conversion takes next. -/
structure Arg where
  value : Value
  taken : Bool

def isWhole (letter : Char) : Bool := ['d', 'i', 'u', 'o', 'x', 'X'].contains letter

def isReal (letter : Char) : Bool := ['e', 'E', 'f', 'F', 'g', 'G'].contains letter

/-! ## Numbers -/

/-- Digits with a point after `k` of them; `point` keeps a point that nothing follows. -/
def pointAfter (k : Nat) (point : Bool) (ds : List Char) : List Char :=
  ds.take k ++ (if k < ds.length then '.' :: ds.drop k else if point then ['.'] else [])

def fixedText (mantissa : Nat) (exponent : Int) (places : Nat) (point : Bool) : List Char :=
  let ds := digitsText (Decimal.toPlaces mantissa exponent places)
  let ds := List.replicate (places + 1 - ds.length) '0' ++ ds
  pointAfter (ds.length - places) point ds

def scientificText (ds : List Char) (k : Int) (point : Bool) : List Char :=
  pointAfter 1 point ds ++ 'e' :: exponentText (k - 1)

/-- The leading digits of a number and the place of its point; of zero, zeros. -/
def leading (mantissa : Nat) (exponent : Int) (count : Nat) : List Char × Int :=
  if mantissa = 0 then (List.replicate count '0', 1) else Decimal.toDigits mantissa exponent count

/-- A number in `count` digits, in exponent form below 10^-4 and from 10^count on. -/
def generalText (mantissa : Nat) (exponent : Int) (count : Nat) (alternate : Bool) : List Char :=
  let (ds, k) := leading mantissa exponent count
  let kept := if alternate then ds else (ds.reverse.dropWhile (· == '0')).reverse
  let kept := if kept.isEmpty then ['0'] else kept
  if k < -3 ∨ (count : Int) < k then scientificText kept k alternate
  else if k ≤ 0 then '0' :: '.' :: (List.replicate (-k).toNat '0' ++ kept)
  else pointAfter k.toNat alternate (kept ++ List.replicate (k.toNat - kept.length) '0')

def realText (letter : Char) (alternate : Bool) (precision : Nat) (x : Float) : List Char :=
  let body : List Char := match Binary64.parts x with
    | .nan => ['n', 'a', 'n']
    | .infinite negative => if negative then ['-', 'i', 'n', 'f'] else ['i', 'n', 'f']
    | .finite negative m e =>
      let shown :=
        if letter.toLower == 'f' then fixedText m e precision alternate
        else if letter.toLower == 'e' then
          let (ds, k) := leading m e (precision + 1)
          scientificText ds k alternate
        else generalText m e (max precision 1) alternate
      if negative then '-' :: shown else shown
  if letter.isUpper then body.map Char.toUpper else body

/-- The digits of a whole number in the base of the letter, at least `precision` of them. -/
def wholeText (letter : Char) (alternate : Bool) (precision : Option Nat) (n : Int) :
    Except Trouble (List Char) := do
  if precision.any (2147483644 < ·) then throw (.overflow .precisionTooLarge)
  let lower := letter.toLower
  let (mark, ds) ←
    if lower == 'x' then pure (['0', 'x'], Nat.toDigits 16 n.natAbs)
    else if lower == 'o' then pure (['0', 'o'], Nat.toDigits 8 n.natAbs)
    else do
      let s ← intText n.natAbs
      pure ([], s.toList)
  let ds := List.replicate (precision.getD 0 - ds.length) '0' ++ ds
  let ds := (if alternate then mark else []) ++ ds
  let ds := if n < 0 then '-' :: ds else ds
  pure (if letter == 'X' then ds.map Char.toUpper else ds)

/-! ## Width -/

/-- Fill to the width: spaces before or after, or zeros after the sign and the mark. -/
def Spec.padded (spec : Spec) (text : List Char) : List Char :=
  let signed := isWhole spec.letter || isReal spec.letter
  let cut := if ['s', 'r', 'a'].contains spec.letter then text.take (spec.precision.getD text.length) else text
  let (sign, body) : List Char × List Char :=
    if !signed then ([], cut)
    else match cut with
      | '-' :: r => (['-'], r)
      | '+' :: r => (['+'], r)
      | r => (if spec.plus then ['+'] else if spec.blank then [' '] else [], r)
  let markLength := if spec.alternate && ['x', 'X', 'o'].contains spec.letter then 2 else 0
  let gap := spec.width.getD 0 - (sign.length + body.length)
  if spec.left then sign ++ body ++ List.replicate gap ' '
  else if signed && spec.zero then
    sign ++ body.take markLength ++ List.replicate gap '0' ++ body.drop markLength
  else List.replicate gap ' ' ++ sign ++ body

/-! ## Arguments -/

def Arg.take (arg : Arg) : Except Trouble (Value × Arg) :=
  if arg.taken then throw (.type .operands) else pure (arg.value, { arg with taken := true })

/-- The whole number that a conversion to whole numbers makes of a value: only `d`, `i` and `u`
    cut the places of a double. -/
def wholeOf (letter : Char) : Value → Except Trouble Int
  | .scalar s =>
    if s.toInt?.isNone && ['o', 'x', 'X'].contains letter then throw (.type .operands) else s.truncated
  | .ref _ => throw (.type .operands)

def realOf : Value → Except Trouble Float
  | .scalar s => s.toFloat
  | .ref _ => throw (.type .operands)

def charOf : Value → Except Trouble Char
  | .scalar (.str s) => match s.toList with
    | [c] => pure c
    | _ => throw (.type .operands)
  | .scalar (.int n) =>
    if 0 ≤ n ∧ n < 0x110000 then pure (Char.ofNat n.toNat) else throw (.overflow .character)
  | .scalar (.bool b) => pure (if b then '\x01' else '\x00')
  | _ => throw (.type .operands)

/-- A width or precision given as `*`. -/
def starOf (bound : Nat) (beyond : OverflowTrouble) : Value → Except Trouble Int
  | .scalar (.int n) =>
    if -(bound : Int) - 1 ≤ n ∧ n ≤ bound then pure n else throw (.overflow beyond)
  | .scalar (.bool b) => pure (if b then 1 else 0)
  | _ => throw (.type .operands)

def converted (h : Heap) (spec : Spec) (index : Nat) (v : Value) : Except Trouble (List Char) := do
  if isWhole spec.letter then
    wholeText spec.letter spec.alternate spec.precision (← wholeOf spec.letter v)
  else if isReal spec.letter then
    pure (realText spec.letter spec.alternate (spec.precision.getD 6) (← realOf v))
  else if spec.letter == 's' then pure (← h.text v).toList
  else if spec.letter == 'r' then pure (← h.display v).toList
  else if spec.letter == 'a' then pure (Text.asciiOnly (← h.display v).toList)
  else if spec.letter == 'c' then pure [← charOf v]
  else throw (.value (.formatCharacter spec.letter index))

/-! ## Reading a conversion -/

/-- The characters up to the parenthesis that closes the one before, and those after it. -/
def keySplit : Nat → List Char → Option (List Char × List Char)
  | _, [] => none
  | depth, c :: cs =>
    if c == ')' && depth == 0 then some ([], cs)
    else
      let depth := if c == ')' then depth - 1 else if c == '(' then depth + 1 else depth
      (keySplit depth cs).map fun (key, rest) => (c :: key, rest)

/-- The entry that `%(key)` asks for. -/
def keyed (h : Heap) (whole : Value) (key : String) : Except Trouble Value :=
  match whole with
  | .ref r => match h.cell r with
    | .object es => match lookupText es key with
      | some v => pure v
      | none => throw (.key key)
    | .list _ => throw (.type .operands)
  | .scalar _ => throw (.type .operands)
where
  lookupText (es : List (Scalar × Value)) (key : String) : Option Value :=
    (es.find? fun e => match e.1 with
      | .str s => s == key
      | _ => false).map (·.2)

def isMapping : Value → Bool
  | .ref _ => true
  | .scalar _ => false

/-- A number, or `*` for the next argument. -/
def measure (bound : Nat) (tooBig : ValueTrouble) (beyond : OverflowTrouble) (arg : Arg) (cs : List Char) :
    Except Trouble (Option Int × Arg × List Char) :=
  match cs with
  | '*' :: rest => do
    let (v, arg) ← arg.take
    let n ← starOf bound beyond v
    pure (some n, arg, rest)
  | _ =>
    let ds := cs.takeWhile Char.isDigit
    let n := ds.foldl (fun n c => n * 10 + (c.toNat - 48)) 0
    if ds.isEmpty then pure (none, arg, cs)
    else if bound < n then throw (.value tooBig)
    else pure (some n, arg, cs.drop ds.length)

-- powers of naturals are the same ones whatever else is imported
attribute [local instance (high)] instPowNat

/-- A conversion after its key: what it asks for, and the rest of the template. -/
def readSpec (arg : Arg) (cs : List Char) : Except Trouble (Spec × Arg × List Char) := do
  let flags := cs.takeWhile fun c => ['-', '+', ' ', '#', '0'].contains c
  let (width, arg, cs) ← measure (2 ^ (63 : Nat) - 1) .widthTooBig .width arg (cs.drop flags.length)
  let (precision, arg, cs) ← match cs with
    | '.' :: rest => do
      let (n, arg, rest) ← measure (2 ^ (31 : Nat) - 1) .precisionTooBig .precision arg rest
      pure (some (n.getD 0).toNat, arg, rest)
    | _ => pure (none, arg, cs)
  let cs := match cs with
    | c :: rest => if ['h', 'l', 'L'].contains c then rest else cs
    | [] => []
  match cs with
  | [] => throw (.value .incompleteFormat)
  | letter :: rest =>
    let spec : Spec :=
      { left := flags.contains '-' || width.any (· < 0)
        plus := flags.contains '+'
        blank := flags.contains ' '
        alternate := flags.contains '#'
        zero := flags.contains '0'
        width := width.map Int.natAbs
        precision
        letter }
    pure (spec, arg, rest)

/-! ## Filling -/

/-- One conversion, after its `%`: its text, and the rest of the template. -/
def fillOne (h : Heap) (whole : Value) (size : Nat) (arg : Arg) (cs : List Char) :
    Except Trouble (List Char × Arg × List Char) := do
  let (arg, cs) ← match cs with
    | '(' :: rest =>
      if !isMapping whole then throw (.type .operands)
      else match keySplit 0 rest with
        | none => throw (.value .incompleteKey)
        | some (key, rest) => do
          let v ← keyed h whole (String.ofList key)
          pure ((⟨v, false⟩ : Arg), rest)
    | _ => pure (arg, cs)
  let (spec, arg, rest) ← readSpec arg cs
  let (v, arg) ← arg.take
  let text ← converted h spec (size - rest.length - 1) v
  if isMapping whole && !arg.taken then throw (.type .operands)
  pure (spec.padded text, arg, rest)

/-- Every conversion takes a character of the template, so its length is room enough. -/
def fillFrom (h : Heap) (whole : Value) (size : Nat) : Nat → Arg → List Char → Except Trouble (List Char)
  | _, arg, [] => if !isMapping whole && !arg.taken then throw (.type .operands) else pure []
  | 0, _, _ => pure []
  | room + 1, arg, '%' :: '%' :: cs => do
    let rest ← fillFrom h whole size room arg cs
    pure ('%' :: rest)
  | room + 1, arg, '%' :: cs => do
    let (shown, arg, cs) ← fillOne h whole size arg cs
    let rest ← fillFrom h whole size room arg cs
    pure (shown ++ rest)
  | room + 1, arg, c :: cs => do
    let rest ← fillFrom h whole size room arg cs
    pure (c :: rest)

def fill (h : Heap) (template : String) (v : Value) : Except Trouble String := do
  let cs := template.toList
  let text ← fillFrom h v cs.length cs.length ⟨v, false⟩ cs
  pure (String.ofList text)

end StepFlow.Template
