/-
  StepFlow.Script.Token — the tokens of the flow language and where they stand.

  Words and signs are closed sets. The signs are listed longest first (`Symbol.all`), so the
  first one that a text starts with is the longest. A script's tokens are kept with the
  position of its end, which is where an error at the end is reported.
-/

import StepFlow.Value.Trouble

namespace StepFlow.Script

inductive Keyword where
  | and | or | not | trueWord | falseWord | nullWord | capitalTrue | capitalFalse | noneWord
  deriving DecidableEq, Repr

namespace Keyword

def text : Keyword → String
  | .and => "and"
  | .or => "or"
  | .not => "not"
  | .trueWord => "true"
  | .falseWord => "false"
  | .nullWord => "null"
  | .capitalTrue => "True"
  | .capitalFalse => "False"
  | .noneWord => "None"

def all : List Keyword :=
  [.and, .or, .not, .trueWord, .falseWord, .nullWord, .capitalTrue, .capitalFalse, .noneWord]

def ofText? (s : String) : Option Keyword := all.find? (·.text == s)

/-- The value of a word that stands for one. -/
def value? : Keyword → Option Scalar
  | .trueWord | .capitalTrue => some (.bool true)
  | .falseWord | .capitalFalse => some (.bool false)
  | .nullWord | .noneWord => some .null
  | .and | .or | .not => none

end Keyword

inductive Symbol where
  | strictEq | strictNe
  | eq | ne | le | ge | plusAssign | minusAssign | timesAssign | slashAssign | andAnd | orOr
  | lt | gt | plus | minus | times | slash | percent | assign | bang
  | dot | comma | openParen | closeParen | openBracket | closeBracket | openBrace | closeBrace
  | colon | semicolon
  deriving DecidableEq, Repr

namespace Symbol

def text : Symbol → String
  | .strictEq => "==="
  | .strictNe => "!=="
  | .eq => "=="
  | .ne => "!="
  | .le => "<="
  | .ge => ">="
  | .plusAssign => "+="
  | .minusAssign => "-="
  | .timesAssign => "*="
  | .slashAssign => "/="
  | .andAnd => "&&"
  | .orOr => "||"
  | .lt => "<"
  | .gt => ">"
  | .plus => "+"
  | .minus => "-"
  | .times => "*"
  | .slash => "/"
  | .percent => "%"
  | .assign => "="
  | .bang => "!"
  | .dot => "."
  | .comma => ","
  | .openParen => "("
  | .closeParen => ")"
  | .openBracket => "["
  | .closeBracket => "]"
  | .openBrace => "\x7b"
  | .closeBrace => "\x7d"
  | .colon => ":"
  | .semicolon => ";"

/-- All signs, longest first. -/
def all : List Symbol :=
  [.strictEq, .strictNe,
   .eq, .ne, .le, .ge, .plusAssign, .minusAssign, .timesAssign, .slashAssign, .andAnd, .orOr,
   .lt, .gt, .plus, .minus, .times, .slash, .percent, .assign, .bang,
   .dot, .comma, .openParen, .closeParen, .openBracket, .closeBracket, .openBrace, .closeBrace,
   .colon, .semicolon]

def opens : Symbol → Bool
  | .openParen | .openBracket | .openBrace => true
  | _ => false

def closes : Symbol → Bool
  | .closeParen | .closeBracket | .closeBrace => true
  | _ => false

end Symbol

/-- A number as it is written; it has no sign. -/
inductive Numeral where
  | int (n : Nat)
  | float (x : Float)

def Numeral.scalar : Numeral → Scalar
  | .int n => .int n
  | .float x => .float x

inductive Lexeme where
  | newline
  | number (n : Numeral)
  | string (s : String)
  | ident (name : String)
  | keyword (k : Keyword)
  | symbol (s : Symbol)

/-- A lexeme as an error message quotes it. A numeral that was read can be written. -/
def Lexeme.shown : Lexeme → String
  | .newline => Text.quoted "\n"
  | .number (.int n) => toString n
  | .number (.float x) => Decimal.floatText x
  | .string s => Text.quoted s
  | .ident name => Text.quoted name
  | .keyword k => Text.quoted k.text
  | .symbol s => Text.quoted s.text

/-- Lines and columns count characters from 1. -/
structure Position where
  line : Nat
  column : Nat
  deriving DecidableEq, Repr

structure Token where
  lexeme : Lexeme
  pos : Position

/-- A script's tokens and where it ends. -/
structure Tokens where
  list : List Token
  stop : Position

end StepFlow.Script
