/-
  StepFlow.Json.Read — from a text to the document it is, or to what is wrong with it and
  where.

  The readers take the characters that are left and give what they read with the characters
  after it. An error stands at a character, counted from the end by the readers and from the
  start, with line and column, in the result.
  - Digits after a leading zero, a point without digits and an exponent without digits are no
    part of the number before them.
  - Two escapes that are the halves of one character are that character. A lone half is
    replaced by U+FFFD.
  - A whole number of more than `Decimal.digitLimit` digits is refused for its length.

  Every reader of a container takes one unit of room for itself; a text of `n` characters
  needs less than `2 * (n + 1)`.
-/

import StepFlow.Json.Basic
import StepFlow.Number.Numeral

namespace StepFlow.Json

inductive Cause where
  | byteOrderMark
  | value
  | propertyName
  | colon
  | comma
  | escape
  | unicodeEscape
  | controlCharacter
  | unterminated
  | extraData
  deriving DecidableEq, Repr

def Cause.message : Cause → String
  | .byteOrderMark => "Unexpected UTF-8 BOM (decode using utf-8-sig)"
  | .value => "Expecting value"
  | .propertyName => "Expecting property name enclosed in double quotes"
  | .colon => "Expecting ':' delimiter"
  | .comma => "Expecting ',' delimiter"
  | .escape => "Invalid \\escape"
  | .unicodeEscape => "Invalid \\uXXXX escape"
  | .controlCharacter => "Invalid control character at"
  | .unterminated => "Unterminated string starting at"
  | .extraData => "Extra data"

/-- What is wrong when `left` characters are left, or a number that is too long. -/
inductive Fault where
  | malformed (cause : Cause) (left : Nat)
  | tooLong (digits : Nat)
  deriving DecidableEq, Repr

def refuse {α : Type} (cause : Cause) (cs : List Char) : Except Fault α := .error (.malformed cause cs.length)

def isSpace (c : Char) : Bool := c == ' ' || c == '\t' || c == '\n' || c == '\r'

def skip (cs : List Char) : List Char := cs.dropWhile isSpace

/-! ## Strings -/

/-- A part of a string: a character, or the code of an escape. -/
inductive Part where
  | char (c : Char)
  | code (n : Nat)

def hexValue? (c : Char) : Option Nat :=
  if c.isDigit then some (c.toNat - 48)
  else if 'a' ≤ c ∧ c ≤ 'f' then some (c.toNat - 87)
  else if 'A' ≤ c ∧ c ≤ 'F' then some (c.toNat - 55)
  else none

def hexCode? (digits : List Char) : Option Nat :=
  digits.foldl (fun n? c => n?.bind fun n => (hexValue? c).map (n * 16 + ·)) (some 0)

def escaped? (c : Char) : Option Char :=
  if c == '"' || c == '\\' || c == '/' then some c
  else if c == 'b' then some '\x08'
  else if c == 'f' then some '\x0c'
  else if c == 'n' then some '\n'
  else if c == 'r' then some '\r'
  else if c == 't' then some '\t'
  else none

/-- The parts of a string up to its closing quote; `opening` is how many characters are left at
    the opening one. -/
def readParts (opening : Nat) : List Char → Except Fault (List Part × List Char)
  | [] => .error (.malformed .unterminated opening)
  | '"' :: cs => .ok ([], cs)
  | ['\\'] => .error (.malformed .unterminated opening)
  | '\\' :: 'u' :: a :: b :: c :: d :: cs =>
    match hexCode? [a, b, c, d], cs with
    | some n, _ :: _ => do
      let (parts, rest) ← readParts opening cs
      pure (.code n :: parts, rest)
    | _, _ => .error (.malformed .unicodeEscape (cs.length + 5))
  | '\\' :: 'u' :: cs => .error (.malformed .unicodeEscape (cs.length + 1))
  | '\\' :: c :: cs =>
    match escaped? c with
    | some e => do
      let (parts, rest) ← readParts opening cs
      pure (.char e :: parts, rest)
    | none => .error (.malformed .escape (cs.length + 2))
  | c :: cs =>
    if c.toNat < 32 then refuse .controlCharacter (c :: cs)
    else do
      let (parts, rest) ← readParts opening cs
      pure (.char c :: parts, rest)

def isHigh (n : Nat) : Bool := decide (0xD800 ≤ n) && decide (n < 0xDC00)

def isLow (n : Nat) : Bool := decide (0xDC00 ≤ n) && decide (n < 0xE000)

def codeChar (n : Nat) : Char := if isHigh n || isLow n then '\uFFFD' else Char.ofNat n

/-- The characters of the parts, halves joined. -/
def joined : List Part → List Char
  | [] => []
  | .char c :: ps => c :: joined ps
  | .code n :: .code m :: ps =>
    if isHigh n && isLow m then Char.ofNat (0x10000 + (n - 0xD800) * 0x400 + (m - 0xDC00)) :: joined ps
    else codeChar n :: joined (.code m :: ps)
  | .code n :: ps => codeChar n :: joined ps

/-- A string after its opening quote. -/
def readString (cs : List Char) : Except Fault (String × List Char) := do
  let (parts, rest) ← readParts (cs.length + 1) cs
  pure (String.ofList (joined parts), rest)

/-! ## Numbers -/

/-- A numeral's sign, its whole digits, its places and its exponent. -/
structure Written where
  negative : Bool
  whole : List Char
  places : List Char
  exponent : Option Int

def wholeDigits : List Char → List Char
  | '0' :: _ => ['0']
  | cs => cs.takeWhile Char.isDigit

/-- The digits after a point, if there are any. -/
def placeDigits : List Char → List Char
  | '.' :: cs => cs.takeWhile Char.isDigit
  | _ => []

/-- An exponent and how many characters it takes. -/
def exponent? : List Char → Option (Int × Nat)
  | c :: cs =>
    if c == 'e' || c == 'E' then
      let (negative, signs) : Bool × Nat := match cs with
        | '-' :: _ => (true, 1)
        | '+' :: _ => (false, 1)
        | _ => (false, 0)
      let digits := (cs.drop signs).takeWhile Char.isDigit
      let n : Int := Numeral.natOf 10 digits
      if digits.isEmpty then none
      else some (if negative then -n else n, 1 + signs + digits.length)
    else none
  | [] => none

def readWritten (cs : List Char) : Option (Written × List Char) :=
  let (negative, body) : Bool × List Char := match cs with
    | '-' :: r => (true, r)
    | _ => (false, cs)
  let whole := wholeDigits body
  let body := body.drop whole.length
  let places := placeDigits body
  let body := if places.isEmpty then body else body.drop (places.length + 1)
  if whole.isEmpty then none
  else match exponent? body with
    | some (e, n) => some (⟨negative, whole, places, some e⟩, body.drop n)
    | none => some (⟨negative, whole, places, none⟩, body)

def Written.json (w : Written) : Except Fault Json :=
  match w.places, w.exponent with
  | [], none =>
    if Decimal.digitLimit < w.whole.length then .error (.tooLong w.whole.length)
    else
      let n : Int := Numeral.natOf 10 w.whole
      .ok (.int (if w.negative then -n else n))
  | places, e =>
    .ok (.float (Numeral.ofDecimal w.negative (Numeral.natOf 10 (w.whole ++ places))
      (e.getD 0 - places.length)))

def readNumber (cs : List Char) : Except Fault (Json × List Char) :=
  match readWritten cs with
  | none => refuse .value cs
  | some (w, rest) => w.json.map fun j => (j, rest)

/-! ## Documents -/

/-- The words that are values. -/
def words : List (List Char × Json) :=
  [("null".toList, .null), ("true".toList, .bool true), ("false".toList, .bool false),
   ("NaN".toList, .float (0.0 / 0.0)), ("Infinity".toList, .float (Binary64.infinity false)),
   ("-Infinity".toList, .float (Binary64.infinity true))]

def readWord (cs : List Char) : Option (Json × List Char) :=
  (words.find? fun w => w.1.isPrefixOf cs).map fun w => (w.2, cs.drop w.1.length)

mutual

def readValue : Nat → List Char → Except Fault (Json × List Char)
  | 0, cs => refuse .value cs
  | room + 1, cs =>
    match cs with
    | '"' :: cs => do
      let (s, rest) ← readString cs
      pure (.str s, rest)
    | '[' :: cs =>
      match skip cs with
      | ']' :: rest => pure (.arr [], rest)
      | cs => do
        let (items, rest) ← readItems room cs
        pure (.arr items, rest)
    | '\x7b' :: cs =>
      match skip cs with
      | '\x7d' :: rest => pure (.obj [], rest)
      | cs => do
        let (members, rest) ← readMembers room cs
        pure (.obj (merged members), rest)
    | cs => match readWord cs with
      | some r => pure r
      | none => readNumber cs

/-- The items of a list from the first one on, up to its closing bracket. -/
def readItems : Nat → List Char → Except Fault (List Json × List Char)
  | 0, cs => refuse .value cs
  | room + 1, cs => do
    let (j, rest) ← readValue room cs
    match skip rest with
    | ']' :: rest => pure ([j], rest)
    | ',' :: rest => do
      let (js, rest) ← readItems room (skip rest)
      pure (j :: js, rest)
    | rest => refuse .comma rest

/-- The members of an object from the first one on, up to its closing brace. -/
def readMembers : Nat → List Char → Except Fault (List (String × Json) × List Char)
  | 0, cs => refuse .value cs
  | room + 1, cs =>
    match cs with
    | '"' :: cs => do
      let (name, rest) ← readString cs
      match skip rest with
      | ':' :: rest => do
        let (j, rest) ← readValue room (skip rest)
        match skip rest with
        | '\x7d' :: rest => pure ([(name, j)], rest)
        | ',' :: rest => do
          let (ms, rest) ← readMembers room (skip rest)
          pure ((name, j) :: ms, rest)
        | rest => refuse .comma rest
      | rest => refuse .colon rest
    | cs => refuse .propertyName cs

end

def byteOrderMark : Char := '\uFEFF'

/-- All characters of a text. -/
def readDocument (cs : List Char) : Except Fault Json := do
  let (j, rest) ← readValue (2 * (cs.length + 1)) (skip cs)
  match skip rest with
  | [] => pure j
  | rest => refuse .extraData rest

/-- A text does not begin with a mark, which only bytes need. -/
def readUnmarked (cs : List Char) : Except Fault Json :=
  if cs.head? == some byteOrderMark then refuse .byteOrderMark cs else readDocument cs

/-! ## Positions -/

/-- Indexes count characters from 0, lines and columns from 1. -/
structure SyntaxError where
  cause : Cause
  index : Nat
  line : Nat
  column : Nat
  deriving DecidableEq, Repr

inductive ReadError where
  | malformed (e : SyntaxError)
  | tooLong (digits : Nat)
  deriving DecidableEq, Repr

def SyntaxError.ofIndex (cs : List Char) (cause : Cause) (index : Nat) : SyntaxError :=
  let before := cs.take index
  { cause
    index
    line := before.count '\n' + 1
    column := (before.reverse.takeWhile (· != '\n')).length + 1 }

/-- The error with its place: `Expecting value: line 1 column 1 (char 0)`. -/
def SyntaxError.message (e : SyntaxError) : String :=
  s!"{e.cause.message}: line {e.line} column {e.column} (char {e.index})"

def ReadError.message : ReadError → String
  | .malformed e => e.message
  | .tooLong digits => (ValueTrouble.tooLongToRead digits).message

def Fault.locate (cs : List Char) : Fault → ReadError
  | .malformed cause left => .malformed (.ofIndex cs cause (cs.length - left))
  | .tooLong digits => .tooLong digits

def read (text : String) : Except ReadError Json :=
  (readUnmarked text.toList).mapError (·.locate text.toList)

/-- A text that was bytes, whose mark is gone: another one is a character like any other. -/
def readDecoded (text : String) : Except ReadError Json :=
  (readDocument text.toList).mapError (·.locate text.toList)

end StepFlow.Json
