/-
  StepFlow.Value.Display — the text of a value.

  `display` is the text inside containers and in messages: texts quoted, `None`, `True` and
  `False`, lists in brackets and objects in braces. A container within itself is shown as
  `[...]` or `\x7b...\x7d`. `text` is the whole value's text, where a text stands for itself;
  `plainText` is what the language's `str` gives, with `null`, `true` and `false`.
-/

import StepFlow.Value.Trouble

namespace StepFlow

def Scalar.display : Scalar → Except Trouble String
  | .null => pure "None"
  | .bool b => pure (if b then "True" else "False")
  | .int n => intText n
  | .float x => pure (Decimal.floatText x)
  | .nan _ => pure "nan"
  | .str s => pure (Text.quoted s)

namespace Heap

variable (h : Heap)

/-- The containers in `opened` hold the value; `room` bounds how many more there can be. -/
def displayWithin (h : Heap) : Nat → List Ref → Value → Except Trouble String
  | _, _, .scalar s => s.display
  | 0, _, .ref _ => pure "..."
  | room + 1, opened, .ref r =>
    match h.cell r with
    | .list xs =>
      if opened.contains r then pure "[...]"
      else do
        let parts ← xs.mapM (displayWithin h room (r :: opened))
        pure ("[" ++ ", ".intercalate parts ++ "]")
    | .object es =>
      if opened.contains r then pure "\x7b...\x7d"
      else do
        let parts ← es.mapM fun e => do
          let k ← e.1.display
          let v ← displayWithin h room (r :: opened) e.2
          pure (k ++ ": " ++ v)
        pure ("\x7b" ++ ", ".intercalate parts ++ "\x7d")

/-- No container is opened twice, so there is room for all of them. -/
def display (v : Value) : Except Trouble String := h.displayWithin (h.cells.size + 1) [] v

def text (v : Value) : Except Trouble String :=
  match v with
  | .scalar (.str s) => pure s
  | v => h.display v

/-- The text of a value in the language's own spelling of null and the booleans. -/
def plainText (v : Value) : Except Trouble String :=
  match v with
  | .scalar .null => pure "null"
  | .scalar (.bool b) => pure (if b then "true" else "false")
  | v => h.text v

end Heap

end StepFlow
