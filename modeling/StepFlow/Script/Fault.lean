/-
  StepFlow.Script.Fault — the errors of the flow language: those of a text that is no script,
  and those of a script that cannot go on.

  A syntax error says what was expected and what was found, and stands at a token or at the
  end; only a text that is too long has no position. What operations fail with is part of
  the language's own error where the language names the operation, and leaves under its own
  class otherwise (`Fault.trouble`).
-/

import StepFlow.Script.Token

namespace StepFlow.Script

/-- The most characters that a script or an expression has. -/
def lengthLimit : Nat := 10 * 1024

inductive Expectation where
  | symbol (s : Symbol)
  | expression
  | afterExpression
  | endOfStatement
  | target
  | propertyName
  | value
  deriving DecidableEq, Repr

def Expectation.message : Expectation → String
  | .symbol s => "Expected '" ++ s.text ++ "'"
  | .expression => "Expected an expression"
  | .afterExpression => "Unexpected token after expression"
  | .endOfStatement => "Expected end of statement"
  | .target => "Invalid assignment target"
  | .propertyName => "Expected a property name"
  | .value => "Expected a value"

inductive SyntaxCause where
  | tooLong (length : Nat)
  | unterminatedString
  | unexpectedCharacter (c : Char)
  | unexpected (expectation : Expectation) (found : Option Lexeme)

def SyntaxCause.message : SyntaxCause → String
  | .tooLong length => s!"Expression exceeds length limit: {length} > {lengthLimit}"
  | .unterminatedString => "Unterminated string literal"
  | .unexpectedCharacter c => "Unexpected character '" ++ c.toString ++ "'"
  | .unexpected expectation found =>
    expectation.message ++ ", found " ++ (found.map Lexeme.shown).getD "end of input"

structure SyntaxError where
  cause : SyntaxCause
  pos : Option Position

def SyntaxError.message (e : SyntaxError) : String :=
  match e.pos with
  | some p => s!"{e.cause.message} (column {p.column})"
  | none => e.cause.message

/-- An error of a script as it runs. The text of a missing key is found beforehand. -/
inductive RunError where
  | unknownVariable (name : String)
  | unknownFunction (name : String)
  | unaryOperand (op : String) (k : Kind)
  | operands (op : String) (left right : Kind)
  | divisionByZero
  | unknownOperator (op : String)
  | keyNotScalar (k : Kind)
  | call (name : String) (t : Trouble)
  | noProperties (name : String) (k : Kind)
  | noProperty (name : String)
  | noKey (shown : String)
  | keyType (k : Kind)
  | indexType (k : Kind)
  | outOfRange (shown : String)
  | notIndexable (k : Kind)
  | readOnly (name : String)
  | propertyTarget (name : String) (k : Kind)
  | indexTarget (k : Kind)

def RunError.message : RunError → String
  | .unknownVariable name => "Unknown variable '" ++ name ++ "'"
  | .unknownFunction name => "Unknown function '" ++ name ++ "'"
  | .unaryOperand op k => s!"Unsupported operand type for unary {op}: {k.word}"
  | .operands op left right =>
    s!"Unsupported operand types for {op}: {left.word} and {right.word}"
  | .divisionByZero => "Division by zero"
  | .unknownOperator op => "Unknown operator '" ++ op ++ "'"
  | .keyNotScalar k => s!"Object keys must be scalar, got {k.word}"
  | .call name t => s!"{name}() failed: {t.message}"
  | .noProperties name k => s!"Cannot read property '{name}' of {k.word}"
  | .noProperty name => s!"Property '{name}' not found"
  | .noKey shown => s!"Key {shown} not found"
  | .keyType k => s!"Invalid key type: {k.word}"
  | .indexType k => s!"Index must be a number, got {k.word}"
  | .outOfRange shown => s!"Index {shown} out of range"
  | .notIndexable k => s!"Cannot index into {k.word}"
  | .readOnly name => s!"'{name}' is read-only"
  | .propertyTarget name k => s!"Cannot set property '{name}' on {k.word}"
  | .indexTarget k => s!"Cannot assign into {k.word}"

inductive Fault where
  | bad (e : SyntaxError)
  | run (e : RunError)
  | trouble (t : Trouble)

namespace Fault

def message : Fault → String
  | .bad e => e.message
  | .run e => e.message
  | .trouble t => t.message

def className : Fault → String
  | .bad _ => "ExpressionSyntaxError"
  | .run _ => "ExpressionError"
  | .trouble t => t.className

end Fault

end StepFlow.Script
