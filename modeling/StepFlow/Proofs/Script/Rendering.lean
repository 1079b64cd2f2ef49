/-
  StepFlow.Proofs.Script.Rendering — the text of an expression.

  Operators of two operands, and `not`, stand between blanks; the other signs, commas and
  colons without any. A child stands in parentheses exactly if its level is looser than the
  one its place asks for: the left operand of a chain may be of the chain's level, the right
  one only of a tighter one, an operand of a sign of the sign's level, and what a property or
  an index follows must be a value. A key always stands in parentheses, since a bare name
  there would be a text.

  `Renderable` says which trees have a text that is read as themselves: a negative number is
  written with a sign, which is read as one, and a name that is a keyword as the keyword.
-/

import StepFlow.Script.Parse

namespace StepFlow

open Text (isDigit isLetter isAlphanumeric)

def BinaryOp.level : BinaryOp → Script.Level
  | .add | .sub => .sum
  | .mul | .div | .mod => .product
  | .eq | .ne | .order _ => .comparison

def UnaryOp.level : UnaryOp → Script.Level
  | .not => .negation
  | .neg | .pos => .sign

def LogicalOp.level : LogicalOp → Script.Level
  | .and => .conjunction
  | .or => .disjunction

/-- The tightest level an expression is of. -/
def Expr.level : Expr → Script.Level
  | .logical op _ _ => op.level
  | .binary op _ _ => op.level
  | .unary op _ => op.level
  | _ => .access

namespace Script

/-- A character of a string between double quotes. -/
def escape (c : Char) : List Char :=
  if c = '\n' then ['\\', 'n'] else if c = '\t' then ['\\', 't'] else if c = '\r' then ['\\', 'r']
  else if c = '\\' || c = '"' then ['\\', c]
  else [c]

def quote (s : List Char) : List Char := '"' :: (s.flatMap escape ++ ['"'])

def parenthesised (cs : List Char) : List Char := '(' :: (cs ++ [')'])

/-- The text of `e` where the place asks for a level. -/
def within (l : Level) (e : Expr) (cs : List Char) : List Char :=
  if e.level.looseness ≤ l.looseness then cs else parenthesised cs

def spellScalar : Scalar → List Char
  | .null => "null".toList
  | .bool true => "true".toList
  | .bool false => "false".toList
  | .int n => (toString n).toList
  | .float x => (Decimal.floatText x).toList
  | .nan _ => "nan".toList
  | .str s => quote s.toList

def spellSign : UnaryOp → List Char
  | .not => [' ', 'n', 'o', 't', ' ']
  | .neg => ['-']
  | .pos => ['+']

/-- A chain of two operands around the text of their operator. -/
def spellChain (l : Level) (op : String) (a b : Expr) (u v : List Char) : List Char :=
  within l a u ++ ' ' :: (op.toList ++ ' ' :: within l.tighter b v)

mutual

def spell : Expr → List Char
  | .literal s => spellScalar s
  | .name n => n.toList
  | .member obj n => within .access obj (spell obj) ++ '.' :: n.toList
  | .index obj key => within .access obj (spell obj) ++ '[' :: (spell key ++ [']'])
  | .call n args => n.toList ++ parenthesised (spellItems args)
  | .list items => '[' :: (spellItems items ++ [']'])
  | .object pairs => '\x7b' :: (spellPairs pairs ++ ['\x7d'])
  | .unary op e => spellSign op ++ within op.level e (spell e)
  | .binary op a b => spellChain op.level op.text a b (spell a) (spell b)
  | .logical op a b => spellChain op.level op.text a b (spell a) (spell b)

def spellItems : List Expr → List Char
  | [] => []
  | [e] => spell e
  | e :: es => spell e ++ ',' :: spellItems es

def spellPairs : List (Expr × Expr) → List Char
  | [] => []
  | [(k, e)] => parenthesised (spell k) ++ ':' :: spell e
  | (k, e) :: ps => parenthesised (spell k) ++ ':' :: (spell e ++ ',' :: spellPairs ps)

end

def render (e : Expr) : String := String.ofList (spell e)

/-- A character that goes on with a word. -/
def isWordChar (c : Char) : Bool := isAlphanumeric c || c == '_'

/-- A name or a keyword. -/
def isWord (s : String) : Bool :=
  match s.toList with
  | [] => false
  | c :: cs => (isLetter c || c == '_') && cs.all isWordChar

def isName (s : String) : Bool := isWord s && (Keyword.ofText? s).isNone

inductive Renderable : Expr → Prop
  | null : Renderable (.literal .null)
  | bool (b : Bool) : Renderable (.literal (.bool b))
  | int {n : Nat} : (Nat.toDigits 10 n).length ≤ Decimal.digitLimit → Renderable (.literal (.int n))
  | str (s : String) : Renderable (.literal (.str s))
  | name {n : String} : isName n = true → Renderable (.name n)
  | member {e : Expr} {n : String} : Renderable e → isWord n = true → Renderable (.member e n)
  | index {e k : Expr} : Renderable e → Renderable k → Renderable (.index e k)
  | call {n : String} {es : List Expr} :
    isName n = true → (∀ e ∈ es, Renderable e) → Renderable (.call n es)
  | list {es : List Expr} : (∀ e ∈ es, Renderable e) → Renderable (.list es)
  | object {ps : List (Expr × Expr)} :
    (∀ p ∈ ps, Renderable p.1) → (∀ p ∈ ps, Renderable p.2) → Renderable (.object ps)
  | unary {op : UnaryOp} {e : Expr} : Renderable e → Renderable (.unary op e)
  | binary {op : BinaryOp} {a b : Expr} : Renderable a → Renderable b → Renderable (.binary op a b)
  | logical {op : LogicalOp} {a b : Expr} : Renderable a → Renderable b → Renderable (.logical op a b)

end Script

end StepFlow
