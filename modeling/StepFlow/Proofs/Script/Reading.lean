/-
  StepFlow.Proofs.Script.Reading — the readers of expressions, without the bounds they carry.

  A reading is looked at as what was read and the tokens after it (`Reading.out`). Each reader
  has its equations in these terms; what is proved of the grammar uses them and opens no reader.
-/

import StepFlow.Script.Parse

namespace StepFlow.Script

variable {α β : Type}

/-! ## Computations that may fail -/

theorem ok_then (a : α) (f : α → Except Unexpected β) : (Except.ok a >>= f) = f a := rfl

theorem then_ok {x : Except Unexpected α} {f : α → Except Unexpected β} {b : β} (h : (x >>= f) = .ok b) :
    ∃ a, x = .ok a ∧ f a = .ok b := by
  cases x with
  | error u => cases h
  | ok a => exact ⟨a, rfl, h⟩

/-! ## What a reading gives -/

def Reading.out {n : Nat} (r : Reading α n) : Except Unexpected (α × List Token) :=
  r.map fun r => (r.value, r.rest)

@[simp] theorem Reading.out_widen {a b : Nat} (r : Reading α a) (h : a ≤ b) : (r.widen h).out = r.out := by
  cases r <;> rfl

theorem out_ok {n : Nat} (r : Read α n) : Reading.out (.ok r) = .ok (r.value, r.rest) := rfl

theorem out_error {n : Nat} (u : Unexpected) : Reading.out (.error u : Reading α n) = .error u := rfl

theorem out_shorter {n : Nat} {r : Reading α n} {a : α} {rest : List Token} (h : r.out = .ok (a, rest)) :
    rest.length < n := by
  cases r with
  | error u => cases h
  | ok r => cases h; exact r.within

theorem after?_self (s : Symbol) (p : Position) (ts : List Token) : after? s (⟨.symbol s, p⟩ :: ts) = some ts :=
  if_pos rfl

theorem after?_eq_some {s : Symbol} {ts rest : List Token} (h : after? s ts = some rest) :
    ∃ p, ts = ⟨.symbol s, p⟩ :: rest := by
  unfold after? at h
  split at h
  · rename_i s' p rest'
    split at h
    · rename_i hs
      cases h
      exact ⟨p, by rw [hs]⟩
    · cases h
  · cases h

theorem expect_out (s : Symbol) (ts : List Token) :
    (expect s ts).out = match after? s ts with
      | some rest => .ok ((), rest)
      | none => .error ⟨.symbol s, ts⟩ := by
  unfold expect
  split
  · rename_i h; simp only [h, out_ok]
  · rename_i h; simp only [h, out_error]

/-! ## Levels -/

theorem parseAt_nil (l : Level) : (parseAt l []).out = (parseBelow l []).out := by rw [parseAt]

theorem parseAt_signed {l : Level} {t : Token} {f : Expr → Expr} (h : l.sign? t.lexeme = some f) (ts : List Token) :
    (parseAt l (t :: ts)).out = (parseAt l ts).out >>= fun r => .ok (f r.1, r.2) := by
  rw [parseAt, h]
  cases parseAt l ts <;> rfl

theorem parseAt_unsigned {l : Level} {t : Token} (h : l.sign? t.lexeme = none) (ts : List Token) :
    (parseAt l (t :: ts)).out = (parseBelow l (t :: ts)).out := by
  rw [parseAt, h]

theorem parseBelow_access (ts : List Token) :
    (parseBelow .access ts).out = (primary ts).out >>= fun r => (suffixes r.1 r.2).out := by
  rw [parseBelow, dif_pos rfl]
  cases primary ts with
  | error u => rfl
  | ok r => exact Reading.out_widen _ _

theorem parseBelow_chain {l : Level} (hl : l ≠ .access) (ts : List Token) :
    (parseBelow l ts).out = (parseAt l.tighter ts).out >>= fun r => (chain l r.1 r.2).out := by
  rw [parseBelow, dif_neg hl]
  cases parseAt l.tighter ts with
  | error u => rfl
  | ok r => exact Reading.out_widen _ _

theorem chain_nil (l : Level) (e : Expr) : (chain l e []).out = .ok (e, []) := by rw [chain]; rfl

theorem chain_stops {l : Level} {t : Token} (h : l.operator? t.lexeme = none) (e : Expr) (ts : List Token) :
    (chain l e (t :: ts)).out = .ok (e, t :: ts) := by
  rw [chain, h]; rfl

theorem chain_goes_on {l : Level} {t : Token} {f : Expr → Expr → Expr} (h : l.operator? t.lexeme = some f)
    (e : Expr) (ts : List Token) :
    (chain l e (t :: ts)).out = (parseAt l.tighter ts).out >>= fun r => (chain l (f e r.1) r.2).out := by
  rw [chain, h]
  simp only []
  cases parseAt l.tighter ts with
  | error u => rfl
  | ok r => exact Reading.out_widen _ _

/-! ## Properties and indexes -/

theorem suffixes_nil (e : Expr) : (suffixes e []).out = .ok (e, []) := by rw [suffixes]; rfl

/-- The property that a lexeme names after a point. -/
def propertyName? : Lexeme → Option String
  | .ident n => some n
  | .keyword k => some k.text
  | _ => none

theorem suffixes_named {t : Token} {n : String} (h : propertyName? t.lexeme = some n) (e : Expr) (p : Position)
    (ts : List Token) : (suffixes e (⟨.symbol .dot, p⟩ :: t :: ts)).out = (suffixes (.member e n) ts).out := by
  obtain ⟨x, q⟩ := t
  rw [suffixes.eq_def]
  cases x with
  | ident m => cases h; exact Reading.out_widen _ _
  | keyword k => cases h; exact Reading.out_widen _ _
  | _ => cases h

theorem suffixes_nameless {ts : List Token} (h : ∀ t ∈ ts.head?, propertyName? t.lexeme = none) (e : Expr)
    (p : Position) : (suffixes e (⟨.symbol .dot, p⟩ :: ts)).out = .error ⟨.propertyName, ts⟩ := by
  rw [suffixes.eq_def]
  match ts with
  | [] => rfl
  | ⟨x, q⟩ :: ts =>
    have hx : propertyName? x = none := h _ rfl
    cases x <;> first | rfl | cases hx

theorem suffixes_index (e : Expr) (p : Position) (ts : List Token) :
    (suffixes e (⟨.symbol .openBracket, p⟩ :: ts)).out =
      (parseAt .disjunction ts).out >>= fun r => (expect .closeBracket r.2).out >>= fun c =>
        (suffixes (.index e r.1) c.2).out := by
  rw [suffixes.eq_def]
  simp only []
  cases parseAt .disjunction ts with
  | error u => rfl
  | ok r =>
    simp only [out_ok, ok_then]
    cases expect .closeBracket r.rest with
    | error u => rfl
    | ok c => exact Reading.out_widen _ _

theorem suffixes_stop (e : Expr) {t : Token} (hd : t.lexeme ≠ .symbol .dot) (hb : t.lexeme ≠ .symbol .openBracket)
    (ts : List Token) : (suffixes e (t :: ts)).out = .ok (e, t :: ts) := by
  unfold suffixes
  split
  · contradiction
  · contradiction
  · rfl

/-! ## Values -/

theorem primary_nil : (primary []).out = .error ⟨.value, []⟩ := by rw [primary]; rfl

theorem primary_number (n : Numeral) (p : Position) (ts : List Token) :
    (primary (⟨.number n, p⟩ :: ts)).out = .ok (.literal n.scalar, ts) := by
  unfold primary; rfl

theorem primary_string (s : String) (p : Position) (ts : List Token) :
    (primary (⟨.string s, p⟩ :: ts)).out = .ok (.literal (.str s), ts) := by
  unfold primary; rfl

theorem primary_keyword (k : Keyword) (p : Position) (ts : List Token) :
    (primary (⟨.keyword k, p⟩ :: ts)).out = match k.value? with
      | some v => .ok (.literal v, ts)
      | none => .error ⟨.value, ⟨.keyword k, p⟩ :: ts⟩ := by
  unfold primary
  simp only []
  cases k.value? <;> rfl

theorem primary_name (n : String) (p : Position) {ts : List Token} (h : after? .openParen ts = none) :
    (primary (⟨.ident n, p⟩ :: ts)).out = .ok (.name n, ts) := by
  unfold primary
  simp only []
  split
  · rfl
  · simp_all

theorem primary_call (n : String) (p : Position) {ts rest : List Token} (h : after? .openParen ts = some rest) :
    (primary (⟨.ident n, p⟩ :: ts)).out = (items .closeParen rest).out >>= fun r => .ok (.call n r.1, r.2) := by
  unfold primary
  simp only []
  split
  · simp_all
  · rename_i rest' h'
    obtain rfl : rest = rest' := Option.some.inj (h.symm.trans h')
    cases items .closeParen rest <;> rfl

theorem primary_group (p : Position) (ts : List Token) :
    (primary (⟨.symbol .openParen, p⟩ :: ts)).out =
      (parseAt .disjunction ts).out >>= fun r => (expect .closeParen r.2).out >>= fun c => .ok (r.1, c.2) := by
  unfold primary
  simp only []
  cases parseAt .disjunction ts with
  | error u => rfl
  | ok r =>
    simp only [out_ok, ok_then]
    cases expect .closeParen r.rest <;> rfl

theorem primary_list (p : Position) (ts : List Token) :
    (primary (⟨.symbol .openBracket, p⟩ :: ts)).out =
      (items .closeBracket ts).out >>= fun r => .ok (.list r.1, r.2) := by
  unfold primary
  simp only []
  cases items .closeBracket ts <;> rfl

theorem primary_object (p : Position) (ts : List Token) :
    (primary (⟨.symbol .openBrace, p⟩ :: ts)).out = (pairs ts).out >>= fun r => .ok (.object r.1, r.2) := by
  unfold primary
  simp only []
  cases pairs ts <;> rfl

theorem primary_newline (p : Position) (ts : List Token) :
    (primary (⟨.newline, p⟩ :: ts)).out = .error ⟨.value, ⟨.newline, p⟩ :: ts⟩ := by
  unfold primary; rfl

theorem primary_symbol {s : Symbol} (h : s.opens = false) (p : Position) (ts : List Token) :
    (primary (⟨.symbol s, p⟩ :: ts)).out = .error ⟨.value, ⟨.symbol s, p⟩ :: ts⟩ := by
  unfold primary
  cases s <;> first | rfl | cases h

/-! ## Items and pairs -/

theorem items_closed {close : Symbol} {ts rest : List Token} (h : after? close ts = some rest) :
    (items close ts).out = .ok ([], rest) := by
  unfold items
  split
  · simp_all [out_ok]
  · simp_all

/-- What follows an item: a comma and the items after it, or the closing sign. -/
def itemsAfter (close : Symbol) (e : Expr) (ts : List Token) : Except Unexpected (List Expr × List Token) :=
  match after? .comma ts with
  | some rest => (items close rest).out >>= fun m => .ok (e :: m.1, m.2)
  | none => (expect close ts).out >>= fun c => .ok ([e], c.2)

theorem items_open {close : Symbol} {ts : List Token} (h : after? close ts = none) :
    (items close ts).out = (parseAt .disjunction ts).out >>= fun r => itemsAfter close r.1 r.2 := by
  rw [items.eq_def]
  split
  · simp_all
  · cases parseAt .disjunction ts with
    | error u => rfl
    | ok r =>
      simp only [out_ok, ok_then, itemsAfter]
      split
      · rename_i rest hc
        simp only [hc]
        cases items close rest <;> rfl
      · rename_i hc
        simp only [hc]
        cases expect close r.rest <;> rfl

theorem key_bare (n : String) (p : Position) (ts : List Token) :
    (key (⟨.ident n, p⟩ :: ts)).out = .ok (.literal (.str n), ts) := by
  unfold key; rfl

theorem key_expr {ts : List Token} (h : ∀ t ∈ ts.head?, ∀ n, t.lexeme ≠ .ident n) :
    (key ts).out = (parseAt .disjunction ts).out := by
  unfold key
  split
  · rename_i n p rest
    exact absurd rfl (h _ rfl n)
  · rfl

theorem pairs_closed {ts rest : List Token} (h : after? .closeBrace ts = some rest) :
    (pairs ts).out = .ok ([], rest) := by
  unfold pairs
  split
  · simp_all [out_ok]
  · simp_all

/-- What follows a pair: a comma and the pairs after it, or the closing brace. -/
def pairsAfter (p : Expr × Expr) (ts : List Token) : Except Unexpected (List (Expr × Expr) × List Token) :=
  match after? .comma ts with
  | some rest => (pairs rest).out >>= fun m => .ok (p :: m.1, m.2)
  | none => (expect .closeBrace ts).out >>= fun c => .ok ([p], c.2)

theorem pairs_open {ts : List Token} (h : after? .closeBrace ts = none) :
    (pairs ts).out = (key ts).out >>= fun k => (expect .colon k.2).out >>= fun c =>
      (parseAt .disjunction c.2).out >>= fun v => pairsAfter (k.1, v.1) v.2 := by
  rw [pairs.eq_def]
  split
  · simp_all
  · cases key ts with
    | error u => rfl
    | ok k =>
      simp only [out_ok, ok_then]
      cases expect .colon k.rest with
      | error u => rfl
      | ok c =>
        simp only [out_ok, ok_then]
        cases parseAt .disjunction c.rest with
        | error u => rfl
        | ok v =>
          simp only [out_ok, ok_then, pairsAfter]
          split
          · rename_i rest hc
            simp only [hc]
            cases pairs rest <;> rfl
          · rename_i hc
            simp only [hc]
            cases expect .closeBrace v.rest <;> rfl

/-! ## Statements -/

/-- What follows the expression that a statement begins with: an assignment to it, or nothing. -/
def statementAfter (e : Expr) : List Token → Except Unexpected (Statement × List Token)
  | [] => .ok (.expr e, [])
  | t :: rest => match assignOp? t.lexeme with
    | none => .ok (.expr e, t :: rest)
    | some op => match e.target? with
      | none => .error ⟨.target, t :: rest⟩
      | some target => (parseAt .disjunction rest).out >>= fun v => .ok (.assign target op v.1, v.2)

theorem statement_out (ts : List Token) :
    (statement ts).out = (parseAt .disjunction ts).out >>= fun r => statementAfter r.1 r.2 := by
  rw [statement.eq_def]
  cases parseAt .disjunction ts with
  | error u => rfl
  | ok r =>
    obtain ⟨e, rest, within⟩ := r
    simp only [out_ok, ok_then]
    split
    · rfl
    · rename_i t rest'
      simp only [statementAfter]
      cases assignOp? t.lexeme with
      | none => rfl
      | some op =>
        simp only []
        cases e.target? with
        | none => rfl
        | some target =>
          simp only []
          cases parseAt .disjunction rest' <;> rfl

/-- What follows a statement: the end, or a separator and the statements after it. -/
def statementsAfter (s : Statement) : List Token → Except Unexpected (List Statement)
  | [] => .ok [s]
  | t :: rest =>
    if isSeparator t.lexeme then statements (t :: rest) >>= fun more => .ok (s :: more)
    else .error ⟨.endOfStatement, t :: rest⟩

theorem statements_eq (ts : List Token) :
    statements ts = match skipSeparators ts with
      | [] => .ok []
      | t :: rest => (statement (t :: rest)).out >>= fun r => statementsAfter r.1 r.2 := by
  rw [statements.eq_def]
  split
  · rename_i h; simp only [h]
  · rename_i t rest h
    simp only [h]
    cases statement (t :: rest) with
    | error u => rfl
    | ok r =>
      obtain ⟨s, rest', within⟩ := r
      simp only [out_ok, ok_then]
      split
      · rfl
      · simp only [statementsAfter]
        split
        · rename_i t' rest' _
          cases statements (t' :: rest') <;> rfl
        · rfl

theorem skipSeparators_cons (t : Token) (ts : List Token) :
    skipSeparators (t :: ts) = if isSeparator t.lexeme then skipSeparators ts else t :: ts := by
  unfold skipSeparators
  rw [List.dropWhile_cons]

theorem statements_separator {t : Token} (h : isSeparator t.lexeme = true) (ts : List Token) :
    statements (t :: ts) = statements ts := by
  rw [statements_eq, statements_eq ts, skipSeparators_cons, if_pos h]

theorem statements_statement {t : Token} (h : isSeparator t.lexeme = false) (ts : List Token) :
    statements (t :: ts) = (statement (t :: ts)).out >>= fun r => statementsAfter r.1 r.2 := by
  rw [statements_eq, skipSeparators_cons, if_neg (by simp [h])]

theorem statements_nil : statements [] = .ok [] := by rw [statements_eq]; rfl

/-- What follows an expression that stands alone: line feeds, and the end. -/
def expressionAfter (e : Expr) (ts : List Token) : Except Unexpected Expr :=
  match skipLines ts with
  | [] => .ok e
  | rest => .error ⟨.afterExpression, rest⟩

theorem expression_eq (ts : List Token) :
    expression ts = match skipLines ts with
      | [] => .error ⟨.expression, []⟩
      | t :: rest => (parseAt .disjunction (t :: rest)).out >>= fun r => expressionAfter r.1 r.2 := by
  unfold expression
  cases skipLines ts with
  | nil => rfl
  | cons t rest =>
    simp only []
    cases parseAt .disjunction (t :: rest) <;> rfl

end StepFlow.Script
