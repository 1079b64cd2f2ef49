/-
  StepFlow.Script.Parse — from tokens to expressions and statements.

  The grammar has one level for each strength of binding (`Level`). A level is either a chain
  of operators that group to the left (`or`, `and`, the comparisons, sums, products) or a run
  of signs before an operand (`not`, `-`); the tightest one is a value followed by properties
  and indexes. Which rule applies is told by the next token alone.

  Every reader returns what it read and the tokens after it, with the proof that it has
  consumed some (`Read`), so the readers end without a bound of their own. An error is the
  expectation that failed and the tokens at which it did.
-/

import StepFlow.Script.Scan
import StepFlow.Script.Tree

namespace StepFlow.Script

/-- What was expected where. -/
structure Unexpected where
  expectation : Expectation
  «at» : List Token

/-- A thing read, and the tokens after it: fewer than `bound`. -/
structure Read (α : Type) (bound : Nat) where
  value : α
  rest : List Token
  within : rest.length < bound

abbrev Reading (α : Type) (bound : Nat) := Except Unexpected (Read α bound)

def Read.widen {α : Type} {a b : Nat} (r : Read α a) (h : a ≤ b) : Read α b :=
  ⟨r.value, r.rest, Nat.lt_of_lt_of_le r.within h⟩

def Reading.widen {α : Type} {a b : Nat} (r : Reading α a) (h : a ≤ b) : Reading α b :=
  r.map (·.widen h)

inductive Level where
  | disjunction | conjunction | negation | comparison | sum | product | sign | access
  deriving DecidableEq, Repr

namespace Level

def tighter : Level → Level
  | .disjunction => .conjunction
  | .conjunction => .negation
  | .negation => .comparison
  | .comparison => .sum
  | .sum => .product
  | .product => .sign
  | .sign | .access => .access

/-- How loosely a level binds. -/
def looseness : Level → Nat
  | .disjunction => 8
  | .conjunction => 7
  | .negation => 6
  | .comparison => 5
  | .sum => 4
  | .product => 3
  | .sign => 2
  | .access => 1

theorem looseness_pos (l : Level) : 0 < l.looseness := by cases l <;> decide

theorem looseness_tighter {l : Level} (h : l ≠ .access) : l.tighter.looseness < l.looseness := by
  cases l <;> first | decide | exact absurd rfl h

/-- The operator that a lexeme is at a level of chains. -/
def operator? : Level → Lexeme → Option (Expr → Expr → Expr)
  | .disjunction, .keyword .or | .disjunction, .symbol .orOr => some (.logical .or)
  | .conjunction, .keyword .and | .conjunction, .symbol .andAnd => some (.logical .and)
  | .comparison, .symbol s => match s with
    | .eq | .strictEq => some (.binary .eq)
    | .ne | .strictNe => some (.binary .ne)
    | .lt => some (.binary (.order .lt))
    | .le => some (.binary (.order .le))
    | .gt => some (.binary (.order .gt))
    | .ge => some (.binary (.order .ge))
    | _ => none
  | .sum, .symbol .plus => some (.binary .add)
  | .sum, .symbol .minus => some (.binary .sub)
  | .product, .symbol .times => some (.binary .mul)
  | .product, .symbol .slash => some (.binary .div)
  | .product, .symbol .percent => some (.binary .mod)
  | _, _ => none

/-- The sign that a lexeme is at a level of signs. -/
def sign? : Level → Lexeme → Option (Expr → Expr)
  | .negation, .keyword .not | .negation, .symbol .bang => some (.unary .not)
  | .sign, .symbol .minus => some (.unary .neg)
  | .sign, .symbol .plus => some (.unary .pos)
  | _, _ => none

end Level

/-- The tokens after a given sign, if they start with it. -/
def after? (s : Symbol) : List Token → Option (List Token)
  | ⟨.symbol s', _⟩ :: rest => if s' = s then some rest else none
  | _ => none

theorem after?_length {s : Symbol} {ts rest : List Token} (h : after? s ts = some rest) :
    rest.length < ts.length := by
  unfold after? at h
  split at h
  · split at h
    · cases h; simp
    · cases h
  · cases h

/-- A sign that must come next. -/
def expect (s : Symbol) (ts : List Token) : Reading Unit ts.length :=
  match h : after? s ts with
  | some rest => .ok ⟨(), rest, after?_length h⟩
  | none => .error ⟨.symbol s, ts⟩

mutual

def parseAt (l : Level) (ts : List Token) : Reading Expr ts.length :=
  match ts with
  | [] => parseBelow l []
  | t :: rest =>
    match l.sign? t.lexeme with
    | some apply =>
      match parseAt l rest with
      | .error e => .error e
      | .ok r => .ok ⟨apply r.value, r.rest, Nat.lt_succ_of_lt r.within⟩
    | none => parseBelow l (t :: rest)
  termination_by (ts.length, 2 * l.looseness + 1)

/-- A level at tokens that start with no sign of it. -/
def parseBelow (l : Level) (ts : List Token) : Reading Expr ts.length :=
  if h : l = .access then
    have := l.looseness_pos
    match primary ts with
    | .error e => .error e
    | .ok r =>
      have := r.within
      (suffixes r.value r.rest).widen r.within
  else
    have := Level.looseness_tighter h
    match parseAt l.tighter ts with
    | .error e => .error e
    | .ok r =>
      have := r.within
      (chain l r.value r.rest).widen r.within
  termination_by (ts.length, 2 * l.looseness)

/-- The operators of a level and their right operands, after the left operand. -/
def chain (l : Level) (left : Expr) (ts : List Token) : Reading Expr (ts.length + 1) :=
  match ts with
  | [] => .ok ⟨left, [], Nat.lt_succ_self _⟩
  | t :: rest =>
    match l.operator? t.lexeme with
    | none => .ok ⟨left, t :: rest, Nat.lt_succ_self _⟩
    | some apply =>
      match parseAt l.tighter rest with
      | .error e => .error e
      | .ok r =>
        have := r.within
        (chain l (apply left r.value) r.rest).widen (by simp only [List.length_cons]; omega)
  termination_by (ts.length, 0)

/-- Properties and indexes after a value. -/
def suffixes (obj : Expr) (ts : List Token) : Reading Expr (ts.length + 1) :=
  match ts with
  | [] => .ok ⟨obj, [], Nat.lt_succ_self _⟩
  | t :: rest =>
    match t.lexeme with
    | .symbol .dot =>
      match rest with
      | ⟨.ident name, _⟩ :: rest' => (suffixes (.member obj name) rest').widen (by simp only [List.length_cons]; omega)
      | ⟨.keyword k, _⟩ :: rest' => (suffixes (.member obj k.text) rest').widen (by simp only [List.length_cons]; omega)
      | _ => .error ⟨.propertyName, rest⟩
    | .symbol .openBracket =>
      match parseAt .disjunction rest with
      | .error e => .error e
      | .ok r =>
        match expect .closeBracket r.rest with
        | .error e => .error e
        | .ok c =>
          have := r.within
          have := c.within
          (suffixes (.index obj r.value) c.rest).widen (by simp only [List.length_cons]; omega)
    | _ => .ok ⟨obj, t :: rest, Nat.lt_succ_self _⟩
  termination_by (ts.length, 0)

def primary (ts : List Token) : Reading Expr ts.length :=
  match ts with
  | [] => .error ⟨.value, []⟩
  | t :: rest =>
    match t.lexeme with
    | .number n => .ok ⟨.literal n.scalar, rest, Nat.lt_succ_self _⟩
    | .string s => .ok ⟨.literal (.str s), rest, Nat.lt_succ_self _⟩
    | .keyword k =>
      match k.value? with
      | some v => .ok ⟨.literal v, rest, Nat.lt_succ_self _⟩
      | none => .error ⟨.value, t :: rest⟩
    | .ident name =>
      match h : after? .openParen rest with
      | none => .ok ⟨.name name, rest, Nat.lt_succ_self _⟩
      | some rest' =>
        have := after?_length h
        match items .closeParen rest' with
        | .error e => .error e
        | .ok r =>
          have := r.within
          .ok ⟨.call name r.value, r.rest, by simp only [List.length_cons]; omega⟩
    | .symbol .openParen =>
      match parseAt .disjunction rest with
      | .error e => .error e
      | .ok r =>
        match expect .closeParen r.rest with
        | .error e => .error e
        | .ok c =>
          have := r.within
          have := c.within
          .ok ⟨r.value, c.rest, by simp only [List.length_cons]; omega⟩
    | .symbol .openBracket =>
      match items .closeBracket rest with
      | .error e => .error e
      | .ok r => .ok ⟨.list r.value, r.rest, Nat.lt_succ_of_lt r.within⟩
    | .symbol .openBrace =>
      match pairs rest with
      | .error e => .error e
      | .ok r => .ok ⟨.object r.value, r.rest, Nat.lt_succ_of_lt r.within⟩
    | _ => .error ⟨.value, t :: rest⟩
  termination_by (ts.length, 1)

/-- Expressions between commas up to a closing sign; the last may have a comma after it. -/
def items (close : Symbol) (ts : List Token) : Reading (List Expr) ts.length :=
  match h : after? close ts with
  | some rest => .ok ⟨[], rest, after?_length h⟩
  | none =>
    match parseAt .disjunction ts with
    | .error e => .error e
    | .ok r =>
      have := r.within
      match h : after? .comma r.rest with
      | some rest =>
        have := after?_length h
        match items close rest with
        | .error e => .error e
        | .ok more =>
          have := more.within
          .ok ⟨r.value :: more.value, more.rest, by omega⟩
      | none =>
        match expect close r.rest with
        | .error e => .error e
        | .ok c =>
          have := c.within
          .ok ⟨[r.value], c.rest, by omega⟩
  termination_by (ts.length, 2 * Level.disjunction.looseness + 2)

/-- A key: a bare name is a text, any other key is an expression. -/
def key (ts : List Token) : Reading Expr ts.length :=
  match ts with
  | ⟨.ident name, _⟩ :: rest => .ok ⟨.literal (.str name), rest, Nat.lt_succ_self _⟩
  | ts => parseAt .disjunction ts
  termination_by (ts.length, 2 * Level.disjunction.looseness + 2)

/-- Keys and values up to the closing brace; the last pair may have a comma after it. -/
def pairs (ts : List Token) : Reading (List (Expr × Expr)) ts.length :=
  match h : after? .closeBrace ts with
  | some rest => .ok ⟨[], rest, after?_length h⟩
  | none =>
    match key ts with
    | .error e => .error e
    | .ok k =>
      have := k.within
      match expect .colon k.rest with
      | .error e => .error e
      | .ok c =>
        have := c.within
        match parseAt .disjunction c.rest with
        | .error e => .error e
        | .ok v =>
          have := v.within
          match h : after? .comma v.rest with
          | some rest =>
            have := after?_length h
            match pairs rest with
            | .error e => .error e
            | .ok more =>
              have := more.within
              .ok ⟨(k.value, v.value) :: more.value, more.rest, by omega⟩
          | none =>
            match expect .closeBrace v.rest with
            | .error e => .error e
            | .ok c =>
              have := c.within
              .ok ⟨[(k.value, v.value)], c.rest, by omega⟩
  termination_by (ts.length, 2 * Level.disjunction.looseness + 3)

end

/-! ## Statements -/

def assignOp? : Lexeme → Option AssignOp
  | .symbol .assign => some .set
  | .symbol .plusAssign => some .add
  | .symbol .minusAssign => some .sub
  | .symbol .timesAssign => some .mul
  | .symbol .slashAssign => some .div
  | _ => none

def statement (ts : List Token) : Reading Statement ts.length :=
  match parseAt .disjunction ts with
  | .error e => .error e
  | .ok r =>
    match h : r.rest with
    | [] => .ok ⟨.expr r.value, [], by have := r.within; simp_all⟩
    | t :: rest =>
      have : (t :: rest).length < ts.length := h ▸ r.within
      match assignOp? t.lexeme with
      | none => .ok ⟨.expr r.value, t :: rest, this⟩
      | some op =>
        match r.value.target? with
        | none => .error ⟨.target, t :: rest⟩
        | some target =>
          match parseAt .disjunction rest with
          | .error e => .error e
          | .ok v =>
            have := v.within
            .ok ⟨.assign target op v.value, v.rest, by simp_all; omega⟩

def isSeparator : Lexeme → Bool
  | .newline | .symbol .semicolon => true
  | _ => false

/-- The tokens after the separators that they start with. -/
def skipSeparators (ts : List Token) : List Token := ts.dropWhile fun t => isSeparator t.lexeme

theorem skipSeparators_length (ts : List Token) : (skipSeparators ts).length ≤ ts.length :=
  (List.dropWhile_sublist _).length_le

/-- Statements with at least one separator between any two of them. -/
def statements (ts : List Token) : Except Unexpected (List Statement) :=
  match h : skipSeparators ts with
  | [] => .ok []
  | t :: rest =>
    match statement (t :: rest) with
    | .error e => .error e
    | .ok r =>
      match hr : r.rest with
      | [] => .ok [r.value]
      | t' :: rest' =>
        if isSeparator t'.lexeme then
          have : (t' :: rest').length < ts.length :=
            Nat.lt_of_lt_of_le (hr ▸ r.within) (h ▸ skipSeparators_length ts)
          match statements (t' :: rest') with
          | .error e => .error e
          | .ok more => .ok (r.value :: more)
        else .error ⟨.endOfStatement, t' :: rest'⟩
  termination_by ts.length

/-- The tokens after the line feeds that they start with. -/
def skipLines (ts : List Token) : List Token := ts.dropWhile fun t => match t.lexeme with
  | .newline => true
  | _ => false

/-- One expression; line feeds may stand before and after it. -/
def expression (ts : List Token) : Except Unexpected Expr :=
  match skipLines ts with
  | [] => .error ⟨.expression, []⟩
  | t :: rest =>
    match parseAt .disjunction (t :: rest) with
    | .error e => .error e
    | .ok r =>
      match skipLines r.rest with
      | [] => .ok r.value
      | rest => .error ⟨.afterExpression, rest⟩

/-! ## Texts -/

/-- An error at the tokens that are left, or at the end when none are. -/
def Unexpected.fault (e : Unexpected) (stop : Position) : Fault :=
  .bad
    { cause := .unexpected e.expectation (e.at.head?.map (·.lexeme))
      pos := some ((e.at.head?.map (·.pos)).getD stop) }

def parseTokens {α : Type} (parse : List Token → Except Unexpected α) (text : String) : Except Fault α :=
  match scan text with
  | .error f => .error f
  | .ok ts => (parse ts.list).mapError (·.fault ts.stop)

def parseExpression (text : String) : Except Fault Expr := parseTokens expression text

def parseScript (text : String) : Except Fault (List Statement) := parseTokens statements text

end StepFlow.Script
