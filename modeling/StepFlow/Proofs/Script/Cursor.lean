/-
  StepFlow.Proofs.Script.Cursor — the readers of the parser, as they move a cursor.

  The readers are given the tokens that are left, and give those that are left then. Here the
  tokens stay where they are. A cursor moves over them, from the first to the end after the last,
  and a reader can look at the token under it (`look`), take it (`take`), and call readers. It
  tells by itself which constructs it is in: those whose opening sign was taken, and whose closing
  sign was not (`bracketed`).

  What happens is logged (`Event`), with the calls that are unfinished and the constructs that are
  open then. A call has as many nested calls as it is given, and no result if these are too few
  (`Task.run`): so it is nothing of the definition that a reader ends, or that the cursor stays
  within the tokens. But with more calls than it needs a reader does the same (`Task.runAlone_more`).
-/

import StepFlow.Proofs.Script.Lookahead

namespace StepFlow.Script

/-! ## Readers and what they do -/

/-- What stands between brackets. -/
inductive Construct where
  | group | call | list | object | index
  deriving DecidableEq, Repr

namespace Construct

def opening : Construct → Symbol
  | .group | .call => .openParen
  | .list | .index => .openBracket
  | .object => .openBrace

def closing : Construct → Symbol
  | .group | .call => .closeParen
  | .list | .index => .closeBracket
  | .object => .closeBrace

end Construct

/-- The readers, but for what they go on from. What follows an operand (`chain`) or a value
    (`suffixes`) is read by a reader of its own, one turn at each call. -/
inductive Reader where
  | expr (l : Level)
  | unsigned (l : Level)
  | chain (l : Level)
  | suffixes | primary | items | key | pairs
  | statement | statements | expression | ending
  deriving DecidableEq, Repr

/-- A reader with what it goes on from, and the kind of thing that it gives. -/
inductive Task : Type → Type where
  | expr (l : Level) : Task Expr
  | unsigned (l : Level) : Task Expr
  | chain (l : Level) (left : Expr) : Task Expr
  | suffixes (obj : Expr) : Task Expr
  | primary : Task Expr
  | items (close : Symbol) : Task (List Expr)
  | key : Task Expr
  | pairs : Task (List (Expr × Expr))
  | statement : Task Statement
  | statements : Task (List Statement)
  | expression : Task Expr
  /-- Line feeds up to the end, after an expression. -/
  | ending (e : Expr) : Task Expr

namespace Task

variable {α : Type}

def reader : Task α → Reader
  | .expr l => .expr l
  | .unsigned l => .unsigned l
  | .chain l _ => .chain l
  | .suffixes _ => .suffixes
  | .primary => .primary
  | .items _ => .items
  | .key => .key
  | .pairs => .pairs
  | .statement => .statement
  | .statements => .statements
  | .expression => .expression
  | .ending _ => .ending

/-- What the parser reads from the tokens that are left. -/
def read : Task α → List Token → Except Unexpected (α × List Token)
  | .expr l, ts => (parseAt l ts).out
  | .unsigned l, ts => (parseBelow l ts).out
  | .chain l e, ts => (Script.chain l e ts).out
  | .suffixes e, ts => (Script.suffixes e ts).out
  | .primary, ts => (Script.primary ts).out
  | .items close, ts => (Script.items close ts).out
  | .key, ts => (Script.key ts).out
  | .pairs, ts => (Script.pairs ts).out
  | .statement, ts => (Script.statement ts).out
  | .statements, ts => ended (Script.statements ts)
  | .expression, ts => ended (Script.expression ts)
  | .ending e, ts => ended (expressionAfter e ts)

end Task

/-! ## The machine -/

/-- An unfinished call, and the place of the token at which it began. -/
structure Frame where
  reader : Reader
  start : Nat

/-- An open construct, and the place of its opening sign. -/
structure Mark where
  construct : Construct
  start : Nat

/-- The unfinished calls and the open constructs, the innermost first. -/
structure Scope where
  calls : List Frame
  opened : List Mark

inductive Event where
  | looked (pos : Nat)
  | took (pos : Nat) (scope : Scope)
  | called (r : Reader) (pos : Nat) (scope : Scope)
  | returned (f : Frame) (pos : Nat)

/-- The place that a token was taken from. -/
def Event.taken? : Event → Option Nat
  | .took pos _ => some pos
  | _ => none

structure Cursor where
  pos : Nat
  log : List Event

def Cursor.note (c : Cursor) (e : Event) : Cursor := { c with log := c.log ++ [e] }

/-- A computation with a cursor. It may find what it did not expect, or have no result at all. -/
def Machine (α : Type) : Type := Scope → Cursor → Option (Except Expectation α × Cursor)

instance : Monad Machine where
  pure a := fun _ c => some (.ok a, c)
  bind m f := fun s c => match m s c with
    | some (.ok a, c') => f a s c'
    | some (.error x, c') => some (.error x, c')
    | none => none

section

variable {α : Type} (ts : List Token)

/-- The token under the cursor. A cursor beyond the end would be taken for one at the end. -/
def look : Machine (Option Token) := fun _ c => some (.ok ts[min c.pos ts.length]?, c.note (.looked c.pos))

/-- Take the token under the cursor; at the end there is none to take. -/
def take : Machine Unit := do
  match ← look ts with
  | some _ => fun s c => some (.ok (), ⟨c.pos + 1, c.log ++ [.took c.pos s]⟩)
  | none => pure ()

/-- What is under the cursor is not what is expected. -/
def refuse (x : Expectation) : Machine α := do
  let _ ← look ts
  fun _ c => some (.error x, c)

/-- Whether a sign is under the cursor. -/
def sees (s : Symbol) : Machine Bool := do
  let t ← look ts
  pure (after? s t.toList).isSome

def accept (s : Symbol) : Machine Bool := do
  if ← sees ts s then
    take ts
    pure true
  else pure false

def demand (s : Symbol) : Machine Unit := do
  if ← accept ts s then pure () else refuse ts (.symbol s)

/-- Take the opening sign of a construct, and be in it. -/
def bracketed (k : Construct) (m : Machine α) : Machine α := do
  let start ← (fun _ c => some (.ok c.pos, c) : Machine Nat)
  take ts
  fun s c => m { s with opened := ⟨k, start⟩ :: s.opened } c

end

/-- Call a reader, and log that and when it returns. -/
def enter {α : Type} (t : Task α) (m : Machine α) : Machine α := fun s c =>
  match m { s with calls := ⟨t.reader, c.pos⟩ :: s.calls } (c.note (.called t.reader c.pos s)) with
  | some (.ok a, c') => some (.ok a, c'.note (.returned ⟨t.reader, c.pos⟩ c'.pos))
  | r => r

namespace Task

/-- What a reader does, with the readers that it calls. -/
def body (ts : List Token) (call : {β : Type} → Task β → Machine β) : {α : Type} → Task α → Machine α
  | _, .expr l => do
    match (← look ts).bind fun t => l.sign? t.lexeme with
    | some apply => do
      take ts
      let e ← call (.expr l)
      pure (apply e)
    | none => call (.unsigned l)
  | _, .unsigned l =>
    if l = .access then do
      let e ← call .primary
      call (.suffixes e)
    else do
      let e ← call (.expr l.tighter)
      call (.chain l e)
  | _, .chain l left => do
    match (← look ts).bind fun t => l.operator? t.lexeme with
    | some apply => do
      take ts
      let right ← call (.expr l.tighter)
      call (.chain l (apply left right))
    | none => pure left
  | _, .suffixes obj => do
    match (← look ts).map Token.lexeme with
    | some (.symbol .dot) => do
      take ts
      match (← look ts).bind fun t => propertyName? t.lexeme with
      | some name => do
        take ts
        call (.suffixes (.member obj name))
      | none => refuse ts .propertyName
    | some (.symbol .openBracket) => do
      let key ← bracketed ts .index do
        let key ← call (.expr .disjunction)
        demand ts .closeBracket
        pure key
      call (.suffixes (.index obj key))
    | _ => pure obj
  | _, .primary => do
    match (← look ts).map Token.lexeme with
    | some (.number n) => do
      take ts
      pure (.literal n.scalar)
    | some (.string s) => do
      take ts
      pure (.literal (.str s))
    | some (.keyword k) =>
      match k.value? with
      | some v => do
        take ts
        pure (.literal v)
      | none => refuse ts .value
    | some (.ident name) => do
      take ts
      if ← sees ts .openParen then
        let args ← bracketed ts .call (call (.items .closeParen))
        pure (.call name args)
      else pure (.name name)
    | some (.symbol .openParen) => bracketed ts .group do
      let e ← call (.expr .disjunction)
      demand ts .closeParen
      pure e
    | some (.symbol .openBracket) => do
      let es ← bracketed ts .list (call (.items .closeBracket))
      pure (.list es)
    | some (.symbol .openBrace) => do
      let ps ← bracketed ts .object (call .pairs)
      pure (.object ps)
    | _ => refuse ts .value
  | _, .items close => do
    if ← accept ts close then pure [] else
      let e ← call (.expr .disjunction)
      if ← accept ts .comma then
        let es ← call (.items close)
        pure (e :: es)
      else
        demand ts close
        pure [e]
  | _, .key => do
    match (← look ts).map Token.lexeme with
    | some (.ident name) => do
      take ts
      pure (.literal (.str name))
    | _ => call (.expr .disjunction)
  | _, .pairs => do
    if ← accept ts .closeBrace then pure [] else
      let k ← call .key
      demand ts .colon
      let v ← call (.expr .disjunction)
      if ← accept ts .comma then
        let ps ← call .pairs
        pure ((k, v) :: ps)
      else
        demand ts .closeBrace
        pure [(k, v)]
  | _, .statement => do
    let e ← call (.expr .disjunction)
    match (← look ts).bind fun t => assignOp? t.lexeme with
    | none => pure (.expr e)
    | some op =>
      match e.target? with
      | none => refuse ts .target
      | some target => do
        take ts
        let v ← call (.expr .disjunction)
        pure (.assign target op v)
  | _, .statements => do
    match ← look ts with
    | none => pure []
    | some t =>
      if isSeparator t.lexeme then
        take ts
        call .statements
      else
        let s ← call .statement
        match ← look ts with
        | none => pure [s]
        | some t =>
          if isSeparator t.lexeme then
            let ss ← call .statements
            pure (s :: ss)
          else refuse ts .endOfStatement
  | _, .expression => do
    match (← look ts).map Token.lexeme with
    | none => refuse ts .expression
    | some .newline => do
      take ts
      call .expression
    | some _ => do
      let e ← call (.expr .disjunction)
      call (.ending e)
  | _, .ending e => do
    match (← look ts).map Token.lexeme with
    | none => pure e
    | some .newline => do
      take ts
      call (.ending e)
    | some _ => refuse ts .afterExpression

/-- A reader with that many nested calls at most. -/
def run (ts : List Token) : Nat → {α : Type} → Task α → Machine α
  | 0, _, _ => fun _ _ => none
  | n + 1, _, t => t.body ts fun t' => enter t' (run ts n t')

/-- A reader that is the outermost call, from the first token. -/
def runAlone {α : Type} (ts : List Token) (n : Nat) (t : Task α) : Option (Except Expectation α × Cursor) :=
  enter t (t.run ts n) ⟨[], []⟩ ⟨0, []⟩

/-- How the reader ends from the first token. It needs no more nested calls than twenty for each
    token and for the end, and to have more makes no difference. -/
def Ends {α : Type} (ts : List Token) (t : Task α) (o : Except Expectation α) (c : Cursor) : Prop :=
  ∀ n, 20 * (ts.length + 1) ≤ n → t.runAlone ts n = some (o, c)

end Task

/-! ## More calls -/

/-- The second computation does what the first one does, where that has a result. -/
def Extends {α : Type} (m m' : Machine α) : Prop := ∀ s c r, m s c = some r → m' s c = some r

section

variable {α β : Type} {m m' : Machine α} {ts : List Token}

theorem bind_eq (m : Machine α) (f : α → Machine β) (s : Scope) (c : Cursor) :
    (m >>= f) s c = match m s c with
      | some (.ok a, c') => f a s c'
      | some (.error x, c') => some (.error x, c')
      | none => none := rfl

theorem Extends.refl (m : Machine α) : Extends m m := fun _ _ _ h => h

theorem Extends.bind {f f' : α → Machine β} (h : Extends m m') (hf : ∀ a, Extends (f a) (f' a)) :
    Extends (m >>= f) (m' >>= f') := by
  intro s c r hr
  rw [bind_eq] at hr ⊢
  cases hm : m s c with
  | none =>
    rw [hm] at hr
    cases hr
  | some o =>
    rw [hm] at hr
    rw [h s c o hm]
    obtain ⟨a | x, c'⟩ := o
    · exact hr
    · exact hf _ s c' r hr

theorem Extends.bracketed (k : Construct) (h : Extends m m') : Extends (bracketed ts k m) (bracketed ts k m') :=
  .bind (.refl _) fun start => .bind (.refl _) fun _ => fun s c r => h { s with opened := ⟨k, start⟩ :: s.opened } c r

theorem Extends.enter (t : Task α) (h : Extends m m') : Extends (enter t m) (enter t m') := by
  intro s c r hr
  unfold Script.enter at hr ⊢
  cases hm : m { s with calls := ⟨t.reader, c.pos⟩ :: s.calls } (c.note (.called t.reader c.pos s)) with
  | none =>
    rw [hm] at hr
    cases hr
  | some o =>
    rw [hm] at hr
    rw [h _ _ o hm]
    exact hr

theorem Task.body_extends {call call' : {β : Type} → Task β → Machine β}
    (h : ∀ {β : Type} (t : Task β), Extends (call t) (call' t)) (t : Task α) :
    Extends (t.body ts call) (t.body ts call') := by
  cases t with
  | expr l =>
    refine .bind (.refl _) fun o => ?_
    split
    · exact .bind (.refl _) fun _ => .bind (h _) fun _ => .refl _
    · exact h _
  | unsigned l =>
    show Extends (if l = .access then _ else _) (if l = .access then _ else _)
    split
    · exact .bind (h _) fun _ => h _
    · exact .bind (h _) fun _ => h _
  | chain l left =>
    refine .bind (.refl _) fun o => ?_
    split
    · exact .bind (.refl _) fun _ => .bind (h _) fun _ => h _
    · exact .refl _
  | suffixes obj =>
    refine .bind (.refl _) fun o => ?_
    split
    · refine .bind (.refl _) fun _ => .bind (.refl _) fun o => ?_
      split
      · exact .bind (.refl _) fun _ => h _
      · exact .refl _
    · exact .bind (.bracketed .index (.bind (h _) fun _ => .refl _)) fun _ => h _
    · exact .refl _
  | primary =>
    refine .bind (.refl _) fun o => ?_
    split
    case h_4 =>
      refine .bind (.refl _) fun _ => .bind (.refl _) fun b => ?_
      split
      · exact .bind (.bracketed .call (h _)) fun _ => .refl _
      · exact .refl _
    case h_5 => exact .bracketed .group (.bind (h _) fun _ => .refl _)
    case h_6 => exact .bind (.bracketed .list (h _)) fun _ => .refl _
    case h_7 => exact .bind (.bracketed .object (h _)) fun _ => .refl _
    all_goals exact .refl _
  | items close =>
    refine .bind (.refl _) fun b => ?_
    split
    · exact .refl _
    · refine .bind (h _) fun _ => .bind (.refl _) fun b => ?_
      split
      · exact .bind (h _) fun _ => .refl _
      · exact .refl _
  | key =>
    refine .bind (.refl _) fun o => ?_
    split
    · exact .refl _
    · exact h _
  | pairs =>
    refine .bind (.refl _) fun b => ?_
    split
    · exact .refl _
    · refine .bind (h _) fun _ => .bind (.refl _) fun _ => .bind (h _) fun _ => .bind (.refl _) fun b => ?_
      split
      · exact .bind (h _) fun _ => .refl _
      · exact .refl _
  | statement =>
    refine .bind (h _) fun e => .bind (.refl _) fun o => ?_
    split
    · exact .refl _
    · split
      · exact .refl _
      · exact .bind (.refl _) fun _ => .bind (h _) fun _ => .refl _
  | statements =>
    refine .bind (.refl _) fun o => ?_
    split
    · exact .refl _
    · split
      · exact .bind (.refl _) fun _ => h _
      · refine .bind (h _) fun _ => .bind (.refl _) fun o => ?_
        split
        · exact .refl _
        · split
          · exact .bind (h _) fun _ => .refl _
          · exact .refl _
  | expression =>
    refine .bind (.refl _) fun o => ?_
    split
    · exact .refl _
    · exact .bind (.refl _) fun _ => h _
    · exact .bind (h _) fun _ => h _
  | ending e =>
    refine .bind (.refl _) fun o => ?_
    split
    · exact .refl _
    · exact .bind (.refl _) fun _ => h _
    · exact .refl _

/-- With more nested calls a reader does the same, if it has a result with fewer. -/
theorem Task.run_extends (n : Nat) : ∀ {α : Type} (t : Task α), Extends (t.run ts n) (t.run ts (n + 1)) := by
  induction n with
  | zero => exact fun _ _ _ _ h => nomatch h
  | succ n ih => exact fun t => t.body_extends fun t' => .enter t' (ih t')

theorem Task.runAlone_more {t : Task α} {n k : Nat} (hle : n ≤ k) {r : Except Expectation α × Cursor}
    (h : t.runAlone ts n = some r) : t.runAlone ts k = some r := by
  induction hle with
  | refl => exact h
  | step _ ih => exact Extends.enter t (t.run_extends _) _ _ r ih

end

end StepFlow.Script
