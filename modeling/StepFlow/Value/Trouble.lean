/-
  StepFlow.Value.Trouble — what operations on values fail with, below the language's own
  errors: causes, with their class and their wording.

  The language catches most of it: an operator turns a wrong type into an error that names
  the two types, a function call turns a wrong type or value into an error that names the
  function. The rest leaves a script under its own class, which is why a cause has one.
-/

import StepFlow.Value.Basic
import StepFlow.Text.Quoted

namespace StepFlow

/-- How many arguments a function wants; the wording differs from function to function. -/
inductive ArityTrouble where
  | exactlyOne (name : String) (given : Nat)
  | atMost (name : String) (most given : Nat)
  | expectedAtMost (name : String) (most given : Nat)
  | expectedAtLeast (name : String) (least given : Nat)
  /-- Some of the `all` named parameters of `callee` are missing. -/
  | missing (callee : String) (names : List String)
  | surplus (callee : String) (most given : Nat)
  | missingNumber
  deriving DecidableEq, Repr

inductive TypeTrouble where
  | operands
  | order (op : String) (left right : Kind)
  | arity (a : ArityTrouble)
  | noLength (k : Kind)
  | noMembers (k : Kind)
  | notIterable (k : Kind)
  | memberOfText (k : Kind)
  | unhashable (k : Kind)
  | notInteger (k : Kind)
  | intArgument (k : Kind)
  | floatArgument (k : Kind)
  | baseWithoutText
  | absOperand (k : Kind)
  | noRounding (k : Kind)
  deriving DecidableEq, Repr

inductive ValueTrouble where
  | tooLongToRead (digits : Nat)
  | tooLongToWrite
  | intLiteral (base : Nat) (text : String)
  | floatLiteral (text : String)
  | nanToInt
  | baseRange
  | emptySequence (name : String)
  | incompleteFormat
  | incompleteKey
  | formatCharacter (c : Char) (index : Nat)
  | widthTooBig
  | precisionTooBig
  deriving DecidableEq, Repr

inductive OverflowTrouble where
  | intToFloat
  | quotient
  | repetition
  | repeatedText
  | infinityToInt
  | character
  | rounded
  | width
  | precision
  | precisionTooLarge
  deriving DecidableEq, Repr

inductive Trouble where
  | type (t : TypeTrouble)
  | value (v : ValueTrouble)
  | overflow (o : OverflowTrouble)
  /-- A template names a key that the object lacks. -/
  | key (name : String)
  | zeroDivision
  /-- Containers nested past `depthLimit`, or within themselves. -/
  | tooDeep
  deriving DecidableEq, Repr

/-- How deep a comparison follows nested containers. -/
def depthLimit : Nat := 1000

private def argumentsWord (n : Nat) : String := if n = 1 then "argument" else "arguments"

def ArityTrouble.message : ArityTrouble → String
  | .exactlyOne name given => s!"{name}() takes exactly one argument ({given} given)"
  | .atMost name most given => s!"{name}() takes at most {most} {argumentsWord most} ({given} given)"
  | .expectedAtMost name most given =>
    s!"{name} expected at most {most} {argumentsWord most}, got {given}"
  | .expectedAtLeast name least given =>
    s!"{name} expected at least {least} {argumentsWord least}, got {given}"
  | .missing callee names =>
    let listed := " and ".intercalate (names.map fun n => "'" ++ n ++ "'")
    s!"{callee}() missing {names.length} required positional {argumentsWord names.length}: {listed}"
  | .surplus callee most given =>
    s!"{callee}() takes {most} positional {argumentsWord most} but {given} were given"
  | .missingNumber => "round() missing required argument 'number' (pos 1)"

def TypeTrouble.message : TypeTrouble → String
  | .operands => "unsupported operand types"
  | .order op left right =>
    s!"'{op}' not supported between instances of '{left.tag}' and '{right.tag}'"
  | .arity a => a.message
  | .noLength k => s!"object of type '{k.tag}' has no len()"
  | .noMembers k => s!"argument of type '{k.tag}' is not iterable"
  | .notIterable k => s!"'{k.tag}' object is not iterable"
  | .memberOfText k => s!"'in <string>' requires string as left operand, not {k.tag}"
  | .unhashable k => s!"unhashable type: '{k.tag}'"
  | .notInteger k => s!"'{k.tag}' object cannot be interpreted as an integer"
  | .intArgument k =>
    s!"int() argument must be a string, a bytes-like object or a real number, not '{k.tag}'"
  | .floatArgument k => s!"float() argument must be a string or a real number, not '{k.tag}'"
  | .baseWithoutText => "int() can't convert non-string with explicit base"
  | .absOperand k => s!"bad operand type for abs(): '{k.tag}'"
  | .noRounding k => s!"type {k.tag} doesn't define __round__ method"

/-- A quoted literal in a message is cut after this many characters. -/
def literalCut : Nat := 200

def ValueTrouble.message : ValueTrouble → String
  | .tooLongToRead digits =>
    s!"Exceeds the limit ({Decimal.digitLimit} digits) for integer string conversion: value has "
      ++ s!"{digits} digits; use sys.set_int_max_str_digits() to increase the limit"
  | .tooLongToWrite =>
    s!"Exceeds the limit ({Decimal.digitLimit} digits) for integer string conversion; "
      ++ "use sys.set_int_max_str_digits() to increase the limit"
  | .intLiteral base text =>
    s!"invalid literal for int() with base {base}: "
      ++ String.ofList ((Text.quoted text).toList.take literalCut)
  | .floatLiteral text => s!"could not convert string to float: {Text.quoted text}"
  | .nanToInt => "cannot convert float NaN to integer"
  | .baseRange => "int() base must be >= 2 and <= 36, or 0"
  | .emptySequence name => s!"{name}() arg is an empty sequence"
  | .incompleteFormat => "incomplete format"
  | .incompleteKey => "incomplete format key"
  | .formatCharacter c index =>
    let shown := if 31 ≤ c.toNat ∧ c.toNat ≤ 126 then c else '?'
    s!"unsupported format character '{shown}' (0x{String.ofList (Text.hex 1 c.toNat)}) at index {index}"
  | .widthTooBig => "width too big"
  | .precisionTooBig => "precision too big"

def OverflowTrouble.message : OverflowTrouble → String
  | .intToFloat => "int too large to convert to float"
  | .quotient => "integer division result too large for a float"
  | .repetition => "cannot fit 'int' into an index-sized integer"
  | .repeatedText => "repeated string is too long"
  | .infinityToInt => "cannot convert float infinity to integer"
  | .character => "%c arg not in range(0x110000)"
  | .rounded => "rounded value too large to represent"
  | .width => "Python int too large to convert to C ssize_t"
  | .precision => "Python int too large to convert to C int"
  | .precisionTooLarge => "precision too large"

namespace Trouble

def message : Trouble → String
  | .type t => t.message
  | .value v => v.message
  | .overflow o => o.message
  | .key name => Text.quoted name
  | .zeroDivision => "division by zero"
  | .tooDeep => "maximum recursion depth exceeded in comparison"

/-- The class of a cause, by which it is reported when nothing catches it. -/
def className : Trouble → String
  | .type _ => "TypeError"
  | .value _ => "ValueError"
  | .overflow _ => "OverflowError"
  | .key _ => "KeyError"
  | .zeroDivision => "ZeroDivisionError"
  | .tooDeep => "RecursionError"

end Trouble

/-- The text of a whole number, or the trouble that it is too long. -/
def intText (n : Int) : Except Trouble String :=
  match Decimal.intText? n with
  | some s => .ok s
  | none => .error (.value .tooLongToWrite)

end StepFlow
