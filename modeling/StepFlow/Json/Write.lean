/-
  StepFlow.Json.Write — the text of a document, on one line or indented.

  Characters beyond ASCII are written as they are; only quotes, backslashes and control
  characters are escaped. On one line, items are separated by a comma and a blank. Indented,
  every item has a line of its own; an empty container stays on its line either way.
-/

import StepFlow.Json.Basic

namespace StepFlow.Json

/-- How a text is laid out: the blanks of one level, or all on one line. -/
abbrev Layout := Option Nat

namespace Layout

/-- What precedes an item or a closing bracket at a depth. -/
def lead (l : Layout) (depth : Nat) : List Char :=
  match l with
  | none => []
  | some width => '\n' :: List.replicate (width * depth) ' '

/-- What is between two items at a depth. -/
def separator (l : Layout) (depth : Nat) : List Char :=
  match l with
  | none => [',', ' ']
  | some _ => ',' :: l.lead depth

end Layout

def escapeChar (c : Char) : List Char :=
  if c == '"' then ['\\', '"']
  else if c == '\\' then ['\\', '\\']
  else if c == '\n' then ['\\', 'n']
  else if c == '\r' then ['\\', 'r']
  else if c == '\t' then ['\\', 't']
  else if c == '\x08' then ['\\', 'b']
  else if c == '\x0c' then ['\\', 'f']
  else if c.toNat < 32 then '\\' :: 'u' :: Text.hex 4 c.toNat
  else [c]

def writeString (s : String) : List Char := '"' :: (s.toList.flatMap escapeChar ++ ['"'])

def writeFloat (x : Float) : List Char :=
  if x.isNaN then "NaN".toList
  else if x.isInf then (if x < 0.0 then "-Infinity" else "Infinity").toList
  else (Decimal.floatText x).toList

mutual

def writeAt (l : Layout) (depth : Nat) : Json → List Char
  | .null => "null".toList
  | .bool b => (if b then "true" else "false").toList
  | .int n => (toString n).toList
  | .float x => writeFloat x
  | .str s => writeString s
  | .arr [] => ['[', ']']
  | .arr (j :: js) =>
    '[' :: (l.lead (depth + 1) ++ writeAt l (depth + 1) j ++ writeItems l (depth + 1) js
      ++ l.lead depth ++ [']'])
  | .obj [] => ['\x7b', '\x7d']
  | .obj ((n, j) :: ms) =>
    '\x7b' :: (l.lead (depth + 1) ++ writeString n ++ ':' :: ' ' :: writeAt l (depth + 1) j
      ++ writeMembers l (depth + 1) ms ++ l.lead depth ++ ['\x7d'])

/-- The items after the first one. -/
def writeItems (l : Layout) (depth : Nat) : List Json → List Char
  | [] => []
  | j :: js => l.separator depth ++ writeAt l depth j ++ writeItems l depth js

/-- The members after the first one. -/
def writeMembers (l : Layout) (depth : Nat) : List (String × Json) → List Char
  | [] => []
  | (n, j) :: ms =>
    l.separator depth ++ writeString n ++ ':' :: ' ' :: writeAt l depth j ++ writeMembers l depth ms

end

def write (l : Layout) (j : Json) : String := String.ofList (writeAt l 0 j)

end StepFlow.Json
