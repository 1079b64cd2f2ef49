/-
  StepFlow.Script.Scan — from a text to its tokens.

  At each character one piece of the text begins (`pieceAt`): a blank, a comment, a line
  feed or a lexeme, the longest there is. The scan goes on after the piece, so it ends.
  - A line feed is a token only outside brackets; brackets are counted whatever their kind.
  - Columns count every character since the last line feed that was a piece of its own: one
    behind a backslash inside a string is part of the string.
  - A numeral may be written in digits that have no value, or in too many; that is trouble
    of its own and no syntax error.
-/

import StepFlow.Script.Fault
import StepFlow.Number.Numeral

namespace StepFlow.Script

open Text (isDigit isLetter isAlphanumeric)

inductive Piece where
  | blank
  | comment
  | newline
  | lexeme (l : Lexeme)

/-- What a backslash and the character after it stand for in a string. -/
def escaped (c : Char) : List Char :=
  if c == 'n' then ['\n'] else if c == 't' then ['\t'] else if c == 'r' then ['\r']
  else if c == '\\' || c == '\'' || c == '"' then [c]
  else ['\\', c]

/-- The characters of a string after its opening quote, and how many the text has for them up to
    and with the closing quote. A string ends before its line does. -/
def stringBody (quote : Char) : List Char → Option (List Char × Nat)
  | [] => none
  | '\n' :: _ => none
  | ['\\'] => none
  | '\\' :: c :: cs => (stringBody quote cs).map fun b => (escaped c ++ b.1, b.2 + 2)
  | c :: cs =>
    if c == quote then some ([], 1)
    else (stringBody quote cs).map fun b => (c :: b.1, b.2 + 1)

/-- The characters of a fraction: a point and at least one digit. -/
def fractionLength : List Char → Nat
  | '.' :: cs =>
    let n := (cs.takeWhile isDigit).length
    if n = 0 then 0 else n + 1
  | _ => 0

/-- The characters of an exponent: `e`, an optional sign and at least one digit. -/
def exponentLength : List Char → Nat
  | c :: cs =>
    if c == 'e' || c == 'E' then
      let sign := match cs with
        | '+' :: _ | '-' :: _ => 1
        | _ => 0
      let n := ((cs.drop sign).takeWhile isDigit).length
      if n = 0 then 0 else 1 + sign + n
    else 0
  | [] => 0

/-- How many characters a numeral has, and whether it is a decimal fraction. -/
def numeralLength (cs : List Char) : Nat × Bool :=
  let whole := (cs.takeWhile isDigit).length
  let fraction := fractionLength (cs.drop whole)
  let exponent := exponentLength (cs.drop (whole + fraction))
  (whole + fraction + exponent, decide (0 < fraction + exponent))

def readNumeral (raw : List Char) (fractional : Bool) : Except Trouble Numeral :=
  let text := String.ofList raw
  if fractional then
    match Numeral.readFloat raw with
    | some x => .ok (.float x)
    | none => .error (.value (.floatLiteral text))
  else
    match StepFlow.Numeral.readInt 10 raw with
    | .ok n => .ok (.int n.toNat)
    | .error .malformed => .error (.value (.intLiteral 10 text))
    | .error (.tooLong digits) => .error (.value (.tooLongToRead digits))

def wordLexeme (word : String) : Lexeme :=
  match Keyword.ofText? word with
  | some k => .keyword k
  | none => .ident word

inductive ScanError where
  | bad (cause : SyntaxCause)
  | trouble (t : Trouble)

/-- The piece that begins with `c`, and how many of the characters `cs` after it belong to it. -/
def pieceAt (c : Char) (cs : List Char) : Except ScanError (Piece × Nat) :=
  if c == '\n' then .ok (.newline, 0)
  else if c == ' ' || c == '\t' || c == '\r' then .ok (.blank, 0)
  else if c == '#' then .ok (.comment, (cs.takeWhile (· != '\n')).length)
  else if isDigit c then
    let (n, fractional) := numeralLength (c :: cs)
    match readNumeral ((c :: cs).take n) fractional with
    | .ok v => .ok (.lexeme (.number v), n - 1)
    | .error t => .error (.trouble t)
  else if isLetter c || c == '_' then
    let tail := cs.takeWhile fun d => isAlphanumeric d || d == '_'
    .ok (.lexeme (wordLexeme (String.ofList (c :: tail))), tail.length)
  else if c == '\'' || c == '"' then
    match stringBody c cs with
    | some (body, n) => .ok (.lexeme (.string (String.ofList body)), n)
    | none => .error (.bad .unterminatedString)
  else
    match Symbol.all.find? fun s => s.text.toList.isPrefixOf (c :: cs) with
    | some s => .ok (.lexeme (.symbol s), s.text.length - 1)
    | none => .error (.bad (.unexpectedCharacter c))

/-- The bracket depth after a lexeme; it never falls below zero. -/
def depthAfter (depth : Nat) : Lexeme → Nat
  | .symbol s => if s.opens then depth + 1 else if s.closes then depth - 1 else depth
  | _ => depth

def scanFrom (line column depth : Nat) (cs : List Char) : Except Fault Tokens :=
  match cs with
  | [] => .ok ⟨[], ⟨line, column⟩⟩
  | c :: cs =>
    match pieceAt c cs with
    | .error (.bad cause) => .error (.bad ⟨cause, some ⟨line, column⟩⟩)
    | .error (.trouble t) => .error (.trouble t)
    | .ok (.newline, n) =>
      (scanFrom (line + 1) 1 depth (cs.drop n)).map fun ts =>
        if depth = 0 then { ts with list := ⟨.newline, ⟨line, column⟩⟩ :: ts.list } else ts
    | .ok (.lexeme l, n) =>
      (scanFrom line (column + 1 + n) (depthAfter depth l) (cs.drop n)).map fun ts =>
        { ts with list := ⟨l, ⟨line, column⟩⟩ :: ts.list }
    | .ok (_, n) => scanFrom line (column + 1 + n) depth (cs.drop n)
  termination_by cs.length
  decreasing_by all_goals simp only [List.length_drop, List.length_cons]; omega

def scan (text : String) : Except Fault Tokens :=
  let cs := text.toList
  if lengthLimit < cs.length then .error (.bad ⟨.tooLong cs.length, none⟩)
  else scanFrom 1 1 0 cs

end StepFlow.Script
