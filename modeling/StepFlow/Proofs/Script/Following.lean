/-
  StepFlow.Proofs.Script.Following — the machine with a cursor reads what the parser reads.

  A reader may call another one only at a later token or at one of lower rank (`Reader.rank`,
  `Descends`), and in a place that suits it (`Task.Fits`). What a reader does is then told by what
  its calls do (`Calls`).

  Proved:
  (1) `chain_follows` and its fellows, one for each reader: it follows the parser if its calls do.
  (2) `Task.run_follows`, by induction on the number of nested calls, and `Task.ends` from it: each
      reader ends from the first token on, as the parser's does, and with a steady cursor.
-/

import StepFlow.Proofs.Script.Steadiness

namespace StepFlow.Script

/-! ## Calls -/

/-- In every unfinished whole expression a construct was opened since it began. -/
def Cleared (calls : List Frame) (opened : List Mark) : Prop :=
  ∀ f ∈ calls, f.reader = .expr .disjunction → ∃ m ∈ opened.head?, f.start ≤ m.start

/-- The calls began at the tokens `rest` at the latest. -/
def Began (ts : List Token) (calls : List Frame) (rest : List Token) : Prop :=
  ∀ f ∈ calls, f.start + rest.length ≤ ts.length

namespace Task

variable {α : Type}

/-- The constructs that a reader leaves open if it succeeds: it may take the closing sign of one. -/
def left : Task α → List Mark → List Mark
  | .items _, opened | .pairs, opened => opened.tail
  | _, opened => opened

/-- Where a reader is called. -/
def Fits : Task α → List Frame → List Mark → Prop
  | .expr l, calls, opened => l = .disjunction → Cleared calls opened
  | .items close, calls, opened => Cleared calls opened ∧ (closings opened).head? = some close
  | .pairs, calls, opened => Cleared calls opened ∧ (closings opened).head? = some .closeBrace
  | .key, calls, opened | .statement, calls, opened => Cleared calls opened
  | .statements, calls, opened | .expression, calls, opened | .ending _, calls, opened =>
    opened = [] ∧ ∀ f ∈ calls, f.reader.outer = true
  | _, _, _ => True

end Task

/-- The calls that a reader can make, when it began at the tokens `rest`, follow the parser. -/
def Calls (ts : List Token) (call : {β : Type} → Task β → Machine β) (r : Reader) (frames : List Frame)
    (rest : List Token) : Prop :=
  ∀ {β : Type} (t : Task β) {opened : List Mark} {c : Cursor} {rest' : List Token}, Steady ts opened c rest' →
    rest'.length < rest.length ∨ (rest'.length = rest.length ∧ t.reader.rank < r.rank) → t.Fits frames opened →
      Follows ts (call t) ⟨frames, opened⟩ c (t.left opened) (t.read rest')

section

variable {ts rest : List Token} {call : {β : Type} → Task β → Machine β} {frames : List Frame}
  {opened : List Mark} {c : Cursor}

theorem Signs.leavesOpen {l : Level} {x : Lexeme} {f : Expr → Expr} (h : Signs l x f) (opened : List Mark) :
    Leaves opened x opened := .flat x h.flat (by rintro rfl; cases h) opened

theorem Signs.level {l : Level} {x : Lexeme} {f : Expr → Expr} (h : Signs l x f) : l ≠ .disjunction := by
  cases h <;> decide

theorem tighter_ne (l : Level) : l.tighter ≠ .disjunction := by cases l <;> decide

theorem expr_follows (l : Level) (hcall : Calls ts call (.expr l) frames rest) (h : Steady ts opened c rest) :
    Follows ts (Task.body ts call (.expr l)) ⟨frames, opened⟩ c opened (parseAt l rest).out := by
  refine .look h fun c1 h1 => ?_
  have unsigned : Follows ts (call (.unsigned l)) ⟨frames, opened⟩ c1 opened (parseBelow l rest).out :=
    hcall (.unsigned l) h1 (.inr ⟨rfl, Nat.lt_succ_self _⟩) trivial
  match rest with
  | [] =>
    rw [parseAt_nil]
    exact unsigned
  | t :: rest =>
    cases hs : l.sign? t.lexeme with
    | none =>
      rw [parseAt_unsigned hs]
      simpa [hs] using unsigned
    | some f =>
      have hsigns := signs_iff.mpr hs
      rw [parseAt_signed hs]
      simp only [List.head?_cons, Option.bind_some, hs]
      refine .step h1 (hsigns.leavesOpen opened) fun c2 h2 => ?_
      refine .bind (hcall (.expr l) h2 (.inl (Nat.lt_succ_self _)) (absurd · hsigns.level)) ?_
      intro e c3 rest3 h3 _
      exact .pure h3 (f e)

theorem unsigned_follows (l : Level) (hcall : Calls ts call (.unsigned l) frames rest) (h : Steady ts opened c rest) :
    Follows ts (Task.body ts call (.unsigned l)) ⟨frames, opened⟩ c opened (parseBelow l rest).out := by
  have hpos := l.looseness_pos
  show Follows ts (if l = .access then _ else _) ⟨frames, opened⟩ c opened _
  by_cases hl : l = .access
  · subst hl
    rw [if_pos rfl, parseBelow_access]
    refine .bind (hcall .primary h (.inr ⟨rfl, by decide⟩) trivial) fun e c1 rest1 h1 he => ?_
    exact hcall (.suffixes e) h1 (.inl (out_shorter he)) trivial
  · have htighter := Level.looseness_tighter hl
    rw [if_neg hl, parseBelow_chain hl]
    refine .bind (hcall (.expr l.tighter) h (.inr ⟨rfl, ?_⟩) (absurd · (tighter_ne l))) fun e c1 rest1 h1 he => ?_
    · show 2 * l.tighter.looseness + 1 < 2 * l.looseness
      omega
    · exact hcall (.chain l e) h1 (.inl (out_shorter he)) trivial

theorem Joins.leavesOpen {l : Level} {x : Lexeme} {f : Expr → Expr → Expr} (h : Joins l x f) (opened : List Mark) :
    Leaves opened x opened := .flat x h.flat (by rintro rfl; cases h) opened

theorem chain_follows (l : Level) (left : Expr) (hcall : Calls ts call (.chain l) frames rest)
    (h : Steady ts opened c rest) :
    Follows ts (Task.body ts call (.chain l left)) ⟨frames, opened⟩ c opened (chain l left rest).out := by
  refine .look h fun c1 h1 => ?_
  match rest with
  | [] =>
    rw [chain_nil]
    exact .pure h1 left
  | t :: rest =>
    cases ho : l.operator? t.lexeme with
    | none =>
      rw [chain_stops ho]
      simp only [List.head?_cons, Option.bind_some, ho]
      exact .pure h1 left
    | some f =>
      rw [chain_goes_on ho]
      simp only [List.head?_cons, Option.bind_some, ho]
      refine .step h1 ((joins_iff.mpr ho).leavesOpen opened) fun c2 h2 => ?_
      refine .bind (hcall (.expr l.tighter) h2 (.inl (Nat.lt_succ_self _)) (absurd · (tighter_ne l))) ?_
      intro right c3 rest3 h3 hright
      exact hcall (.chain l (f left right)) h3 (.inl (Nat.lt_succ_of_lt (out_shorter hright))) trivial

theorem Names.leavesOpen {x : Lexeme} {n : String} (h : Names x n) (opened : List Mark) : Leaves opened x opened :=
  .flat x h.flat (by rintro rfl; cases h) opened

/-- A construct that is opened now clears all calls that began before. -/
theorem Began.cleared (hbegan : Began ts frames rest) (h : Steady ts opened c rest) (k : Construct) :
    Cleared frames (⟨k, c.pos⟩ :: opened) := by
  intro f hf _
  have hstart := hbegan f hf
  have hpos := h.length
  exact ⟨⟨k, c.pos⟩, rfl, by dsimp only; omega⟩

theorem Began.shorter {rest' : List Token} (hbegan : Began ts frames rest) (h : rest'.length ≤ rest.length) :
    Began ts frames rest' := fun f hf => Nat.le_trans (Nat.add_le_add_left h _) (hbegan f hf)

/-- An expression and the closing sign after it. -/
def enclosed (close : Symbol) (ts : List Token) : Except Unexpected (Expr × List Token) :=
  (parseAt .disjunction ts).out >>= fun r => (expect close r.2).out >>= fun c => .ok (r.1, c.2)

theorem enclosed_then {β : Type} (close : Symbol) (ts : List Token)
    (f : Expr × List Token → Except Unexpected (β × List Token)) :
    (enclosed close ts >>= f) =
      (parseAt .disjunction ts).out >>= fun r => (expect close r.2).out >>= fun c => f (r.1, c.2) := by
  unfold enclosed
  cases (parseAt .disjunction ts).out with
  | error x => rfl
  | ok r =>
    simp only [ok_then]
    cases (expect close r.2).out <;> rfl

theorem enclosed_shorter {close : Symbol} {ts : List Token} {e : Expr} {rest : List Token}
    (h : enclosed close ts = .ok (e, rest)) : rest.length < ts.length := by
  obtain ⟨r, hr, h⟩ := then_ok h
  obtain ⟨c, hc, h⟩ := then_ok h
  cases h
  exact Nat.lt_trans (out_shorter hc) (out_shorter hr)

/-- An expression between brackets, of which the opening one is under the cursor. -/
theorem enclosed_follows {r : Reader} {k : Construct} {p : Position} {rest₀ : List Token}
    (hcall : Calls ts call r frames rest₀) (h : Steady ts opened c (⟨.symbol k.opening, p⟩ :: rest))
    (hshort : rest.length < rest₀.length) (hbegan : Began ts frames (⟨.symbol k.opening, p⟩ :: rest)) :
    Follows ts (bracketed ts k do
        let e ← call (.expr .disjunction)
        demand ts k.closing
        pure e) ⟨frames, opened⟩ c opened (enclosed k.closing rest) := by
  refine .bracketed h fun c1 h1 => ?_
  refine .bind (hcall (.expr .disjunction) h1 (.inl hshort) fun _ => hbegan.cleared h k) fun e c2 rest2 h2 _ => ?_
  refine .bind (.demand h2 (.closing ⟨k, c.pos⟩ opened)) fun _ c3 rest3 h3 _ => ?_
  exact .pure h3 e

theorem suffixes_follows (obj : Expr) (hcall : Calls ts call .suffixes frames rest) (h : Steady ts opened c rest)
    (hbegan : Began ts frames rest) :
    Follows ts (Task.body ts call (.suffixes obj)) ⟨frames, opened⟩ c opened (suffixes obj rest).out := by
  refine .look h fun c1 h1 => ?_
  match rest with
  | [] =>
    rw [suffixes_nil]
    exact .pure h1 obj
  | ⟨x, p⟩ :: rest =>
    by_cases hdot : x = .symbol .dot
    · subst hdot
      refine .step h1 (.flat (.symbol .dot) (fun _ => rfl) (by simp) opened) fun c2 h2 => .look h2 fun c3 h3 => ?_
      match rest with
      | [] =>
        rw [suffixes_nameless (by simp)]
        exact .refuse h3 _
      | t :: rest =>
        cases hn : propertyName? t.lexeme with
        | none =>
          rw [suffixes_nameless (by simpa using hn)]
          simp only [List.head?_cons, Option.bind_some, hn]
          exact .refuse h3 _
        | some n =>
          rw [suffixes_named hn]
          simp only [List.head?_cons, Option.bind_some, hn]
          refine .step h3 ((names_iff.mpr hn).leavesOpen opened) fun c4 h4 => ?_
          exact hcall (.suffixes (.member obj n)) h4 (.inl (by simp only [List.length_cons]; omega)) trivial
    by_cases hb : x = .symbol .openBracket
    · subst hb
      rw [suffixes_index, ← enclosed_then .closeBracket rest fun k => (suffixes (.index obj k.1) k.2).out]
      refine .bind (enclosed_follows (k := .index) hcall h1 (Nat.lt_succ_self _) hbegan) fun e c2 rest2 h2 he => ?_
      exact hcall (.suffixes (.index obj e)) h2 (.inl (Nat.lt_succ_of_lt (enclosed_shorter he))) trivial
    · rw [suffixes_stop obj hdot hb]
      simp only [List.head?_cons, Option.map_some]
      split
      · rename_i heq
        cases heq
        contradiction
      · rename_i heq
        cases heq
        contradiction
      · exact .pure h1 obj

theorem primary_follows (hcall : Calls ts call .primary frames rest) (h : Steady ts opened c rest)
    (hbegan : Began ts frames rest) :
    Follows ts (Task.body ts call .primary) ⟨frames, opened⟩ c opened (primary rest).out := by
  refine .look h fun c1 h1 => ?_
  cases rest with
  | nil =>
    rw [primary_nil]
    exact .refuse h1 _
  | cons t rest =>
    obtain ⟨x, p⟩ := t
    cases x with
    | number n =>
      rw [primary_number]
      exact .step h1 (.flat (.number n) (fun _ => rfl) (by simp) opened) fun c2 h2 => .pure h2 _
    | string s =>
      rw [primary_string]
      exact .step h1 (.flat (.string s) (fun _ => rfl) (by simp) opened) fun c2 h2 => .pure h2 _
    | keyword k =>
      rw [primary_keyword]
      simp only [List.head?_cons, Option.map_some]
      cases k.value? with
      | none => exact .refuse h1 _
      | some v => exact .step h1 (.flat (.keyword k) (fun _ => rfl) (by simp) opened) fun c2 h2 => .pure h2 _
    | ident n =>
      refine .step h1 (.flat (.ident n) (fun _ => rfl) (by simp) opened) fun c2 h2 => .sees h2 fun c3 h3 => ?_
      cases ho : after? .openParen rest with
      | none =>
        rw [primary_name n p ho]
        exact .pure h3 _
      | some rest' =>
        rw [primary_call n p ho]
        obtain ⟨p', rfl⟩ := after?_eq_some ho
        have hbegan3 := hbegan.shorter (Nat.le_succ _)
        refine .bind (.bracketed (k := .call) h3 fun c4 h4 => ?_) fun args c4 rest4 h4 _ => .pure h4 _
        refine hcall (.items .closeParen) h4 (.inl (by simp only [List.length_cons]; omega)) ?_
        exact ⟨hbegan3.cleared h3 .call, rfl⟩
    | symbol s =>
      by_cases hp : s = .openParen
      · subst hp
        rw [primary_group]
        exact enclosed_follows (k := .group) hcall h1 (Nat.lt_succ_self _) hbegan
      by_cases hb : s = .openBracket
      · subst hb
        rw [primary_list]
        refine .bind (.bracketed (k := .list) h1 fun c2 h2 => ?_) fun es c2 rest2 h2 _ => .pure h2 _
        exact hcall (.items .closeBracket) h2 (.inl (Nat.lt_succ_self _)) ⟨hbegan.cleared h1 .list, rfl⟩
      by_cases hc : s = .openBrace
      · subst hc
        rw [primary_object]
        refine .bind (.bracketed (k := .object) h1 fun c2 h2 => ?_) fun ps c2 rest2 h2 _ => .pure h2 _
        exact hcall .pairs h2 (.inl (Nat.lt_succ_self _)) ⟨hbegan.cleared h1 .object, rfl⟩
      rw [primary_symbol (by cases s <;> first | rfl | contradiction)]
      simp only [List.head?_cons, Option.map_some]
      cases s <;> first | exact .refuse h1 _ | contradiction
    | newline =>
      rw [primary_newline]
      exact .refuse h1 _

theorem Leaves.close {close : Symbol} (h : (closings opened).head? = some close) :
    Leaves opened (.symbol close) opened.tail := by
  match opened with
  | [] => cases h
  | m :: opened =>
    cases h
    exact .closing m opened

theorem items_follows (close : Symbol) (hcall : Calls ts call .items frames rest) (h : Steady ts opened c rest)
    (hfits : (Task.items close).Fits frames opened) :
    Follows ts (Task.body ts call (.items close)) ⟨frames, opened⟩ c opened.tail (items close rest).out := by
  obtain ⟨hcleared, hclose⟩ := hfits
  refine .accept h (.close hclose) (fun c1 rest1 ha h1 => ?_) fun ha c1 h1 => ?_
  · rw [items_closed ha]
    exact .pure h1 _
  rw [items_open ha]
  refine .bind (hcall (.expr .disjunction) h1 (.inr ⟨rfl, by decide⟩) fun _ => hcleared) fun e c2 rest2 h2 he => ?_
  have hlt := out_shorter he
  unfold itemsAfter
  refine .accept h2 (.flat (.symbol .comma) (fun _ => rfl) (by simp) opened) (fun c3 rest3 hm h3 => ?_)
    fun hm c3 h3 => ?_
  · have hlt' := after?_length hm
    rw [hm]
    refine .bind (hcall (.items close) h3 (.inl (by omega)) ⟨hcleared, hclose⟩) fun es c4 rest4 h4 _ => ?_
    exact .pure h4 _
  · rw [hm]
    exact .bind (.demand h3 (.close hclose)) fun _ c4 rest4 h4 _ => .pure h4 _

theorem key_follows (hcall : Calls ts call .key frames rest) (h : Steady ts opened c rest)
    (hfits : Task.key.Fits frames opened) :
    Follows ts (Task.body ts call .key) ⟨frames, opened⟩ c opened (key rest).out := by
  refine .look h fun c1 h1 => ?_
  have asExpr : Follows ts (call (.expr .disjunction)) ⟨frames, opened⟩ c1 opened (parseAt .disjunction rest).out :=
    hcall (.expr .disjunction) h1 (.inr ⟨rfl, by decide⟩) fun _ => hfits
  match rest with
  | [] =>
    rw [key_expr (by simp)]
    exact asExpr
  | ⟨x, p⟩ :: rest =>
    cases x with
    | ident n =>
      rw [key_bare]
      exact .step h1 (.flat (.ident n) (fun _ => rfl) (by simp) opened) fun c2 h2 => .pure h2 _
    | _ =>
      rw [key_expr (by simp)]
      exact asExpr

theorem pairs_follows (hcall : Calls ts call .pairs frames rest) (h : Steady ts opened c rest)
    (hfits : Task.pairs.Fits frames opened) :
    Follows ts (Task.body ts call .pairs) ⟨frames, opened⟩ c opened.tail (pairs rest).out := by
  obtain ⟨hcleared, hclose⟩ := hfits
  refine .accept h (.close hclose) (fun c1 rest1 ha h1 => ?_) fun ha c1 h1 => ?_
  · rw [pairs_closed ha]
    exact .pure h1 _
  rw [pairs_open ha]
  refine .bind (hcall .key h1 (.inr ⟨rfl, by decide⟩) hcleared) fun k c2 rest2 h2 hk => ?_
  refine .bind (.demand h2 (.flat (.symbol .colon) (fun _ => rfl) (by simp) opened)) fun _ c3 rest3 h3 hc => ?_
  have hlt := Nat.lt_trans (out_shorter hc) (out_shorter hk)
  refine .bind (hcall (.expr .disjunction) h3 (.inl hlt) fun _ => hcleared) fun v c4 rest4 h4 hv => ?_
  have hlt := Nat.lt_trans (out_shorter hv) hlt
  unfold pairsAfter
  refine .accept h4 (.flat (.symbol .comma) (fun _ => rfl) (by simp) opened) (fun c5 rest5 hm h5 => ?_)
    fun hm c5 h5 => ?_
  · have hlt' := after?_length hm
    rw [hm]
    exact .bind (hcall .pairs h5 (.inl (by omega)) ⟨hcleared, hclose⟩) fun ps c6 rest6 h6 _ => .pure h6 _
  · rw [hm]
    exact .bind (.demand h5 (.close hclose)) fun _ c6 rest6 h6 _ => .pure h6 _

theorem Assigns.leavesOpen {x : Lexeme} {op : AssignOp} (h : Assigns x op) (opened : List Mark) :
    Leaves opened x opened := .flat x h.flat (by rintro rfl; cases h) opened

theorem statement_follows (hcall : Calls ts call .statement frames rest) (h : Steady ts opened c rest)
    (hfits : Task.statement.Fits frames opened) :
    Follows ts (Task.body ts call .statement) ⟨frames, opened⟩ c opened (statement rest).out := by
  rw [statement_out]
  refine .bind (hcall (.expr .disjunction) h (.inr ⟨rfl, by decide⟩) fun _ => hfits) fun e c1 rest1 h1 he => ?_
  have hlt := out_shorter he
  refine .look h1 fun c2 h2 => ?_
  match rest1 with
  | [] => exact .pure h2 _
  | t :: rest1 =>
    simp only [List.head?_cons, Option.bind_some, statementAfter]
    cases ho : assignOp? t.lexeme with
    | none => exact .pure h2 _
    | some op =>
      cases e.target? with
      | none => exact .refuse h2 _
      | some target =>
        refine .step h2 ((assigns_iff.mpr ho).leavesOpen opened) fun c3 h3 => ?_
        have hlt' : rest1.length < rest.length := Nat.lt_of_succ_lt hlt
        exact .bind (hcall (.expr .disjunction) h3 (.inl hlt') fun _ => hfits) fun v c4 rest4 h4 _ => .pure h4 _

/-- A separator is taken outside of all constructs, by a reader of a text as a whole. -/
theorem Follows.separated {α : Type} {t : Token} {f : Unit → Machine α} {r : Except Unexpected (α × List Token)}
    {after : List Mark} (h : Steady ts opened c (t :: rest)) (ht : isSeparator t.lexeme = true)
    (hfits : opened = [] ∧ ∀ f ∈ frames, f.reader.outer = true)
    (hf : ∀ c', Steady ts opened c' rest → Follows ts (f ()) ⟨frames, opened⟩ c' after r) :
    Follows ts (Script.take ts >>= f) ⟨frames, opened⟩ c after r := by
  obtain ⟨rfl, houter⟩ := hfits
  refine .take h ?_ (by simp) (fun _ => ⟨rfl, houter⟩) hf
  obtain ⟨x, p⟩ := t
  match x, ht with
  | .newline, _ => rfl
  | .symbol .semicolon, _ => rfl

theorem cleared_outer (h : ∀ f ∈ frames, f.reader.outer = true) : Cleared frames opened := by
  intro f hf he
  have hf := h f hf
  rw [he] at hf
  cases hf

theorem statements_follows (hcall : Calls ts call .statements frames rest) (h : Steady ts opened c rest)
    (hfits : Task.statements.Fits frames opened) :
    Follows ts (Task.body ts call .statements) ⟨frames, opened⟩ c opened (ended (statements rest)) := by
  refine .look h fun c1 h1 => ?_
  match rest with
  | [] =>
    rw [statements_nil]
    exact .pure h1 _
  | t :: rest =>
    simp only [List.head?_cons]
    cases hs : isSeparator t.lexeme with
    | true =>
      rw [statements_separator hs, if_pos rfl]
      refine .separated h1 hs hfits fun c2 h2 => ?_
      exact hcall .statements h2 (.inl (Nat.lt_succ_self _)) hfits
    | false =>
      rw [statements_statement hs, ended_then, if_neg (by simp)]
      refine .bind (hcall .statement h1 (.inr ⟨rfl, by decide⟩) (cleared_outer hfits.2)) fun s c2 rest2 h2 hr => ?_
      refine .look h2 fun c3 h3 => ?_
      match rest2 with
      | [] => exact .pure h3 _
      | t' :: rest2 =>
        simp only [List.head?_cons, statementsAfter]
        cases isSeparator t'.lexeme with
        | false => exact .refuse h3 _
        | true =>
          rw [if_pos rfl, if_pos rfl, ended_map]
          exact .bind (hcall .statements h3 (.inl (out_shorter hr)) hfits) fun ss c4 rest4 h4 _ => .pure h4 _

theorem expression_follows (hcall : Calls ts call .expression frames rest) (h : Steady ts opened c rest)
    (hfits : Task.expression.Fits frames opened) :
    Follows ts (Task.body ts call .expression) ⟨frames, opened⟩ c opened (ended (expression rest)) := by
  refine .look h fun c1 h1 => ?_
  match rest with
  | [] => exact .refuse h1 _
  | ⟨x, p⟩ :: rest =>
    by_cases hx : x = .newline
    · subst hx
      rw [expression_newline rfl]
      refine .separated h1 rfl hfits fun c2 h2 => ?_
      exact hcall .expression h2 (.inl (Nat.lt_succ_self _)) hfits
    · rw [expression_other hx, ended_then]
      have whole : Follows ts (call (.expr .disjunction) >>= fun e => call (.ending e)) ⟨frames, opened⟩ c1 opened
          ((parseAt .disjunction (⟨x, p⟩ :: rest)).out >>= fun r => ended (expressionAfter r.1 r.2)) := by
        refine .bind (hcall (.expr .disjunction) h1 (.inr ⟨rfl, by decide⟩) fun _ => cleared_outer hfits.2) ?_
        intro e c2 rest2 h2 he
        exact hcall (.ending e) h2 (.inl (out_shorter he)) hfits
      cases x with
      | newline => exact absurd rfl hx
      | _ => exact whole

theorem ending_follows (e : Expr) (hcall : Calls ts call .ending frames rest) (h : Steady ts opened c rest)
    (hfits : (Task.ending e).Fits frames opened) :
    Follows ts (Task.body ts call (.ending e)) ⟨frames, opened⟩ c opened (ended (expressionAfter e rest)) := by
  refine .look h fun c1 h1 => ?_
  match rest with
  | [] => exact .pure h1 e
  | ⟨x, p⟩ :: rest =>
    cases x with
    | newline =>
      have hread : expressionAfter e (⟨.newline, p⟩ :: rest) = expressionAfter e rest := rfl
      rw [hread]
      refine .separated h1 rfl hfits fun c2 h2 => ?_
      exact hcall (.ending e) h2 (.inl (Nat.lt_succ_self _)) hfits
    | _ => exact .refuse h1 _

/-- What suits a reader suits what it does, now that its own call is one of the unfinished ones. -/
theorem Cleared.cons {f : Frame} (h : Cleared frames opened) (hf : f.reader ≠ .expr .disjunction) :
    Cleared (f :: frames) opened := by
  intro g hg he
  rcases List.mem_cons.mp hg with rfl | hg
  · exact absurd he hf
  · exact h g hg he

theorem outer_cons {f : Frame} (h : opened = [] ∧ ∀ g ∈ frames, g.reader.outer = true) (hf : f.reader.outer = true) :
    opened = [] ∧ ∀ g ∈ f :: frames, g.reader.outer = true :=
  ⟨h.1, List.forall_mem_cons.mpr ⟨hf, h.2⟩⟩

/-- A reader does what the parser does, if the readers that it calls do. -/
theorem Task.body_follows {α : Type} (t : Task α) {start : Nat}
    (hcall : Calls ts call t.reader (⟨t.reader, start⟩ :: frames) rest) (h : Steady ts opened c rest)
    (hbegan : Began ts (⟨t.reader, start⟩ :: frames) rest) (hfits : t.Fits frames opened) :
    Follows ts (t.body ts call) ⟨⟨t.reader, start⟩ :: frames, opened⟩ c (t.left opened) (t.read rest) := by
  cases t with
  | expr l => exact expr_follows l hcall h
  | unsigned l => exact unsigned_follows l hcall h
  | chain l e => exact chain_follows l e hcall h
  | suffixes e => exact suffixes_follows e hcall h hbegan
  | primary => exact primary_follows hcall h hbegan
  | items close => exact items_follows close hcall h ⟨hfits.1.cons nofun, hfits.2⟩
  | key => exact key_follows hcall h (hfits.cons nofun)
  | pairs => exact pairs_follows hcall h ⟨hfits.1.cons nofun, hfits.2⟩
  | statement => exact statement_follows hcall h (hfits.cons nofun)
  | statements => exact statements_follows hcall h (outer_cons hfits rfl)
  | expression => exact expression_follows hcall h (outer_cons hfits rfl)
  | ending e => exact ending_follows e hcall h (outer_cons hfits rfl)

end

/-! ## Runs -/

/-- A reader leaves no more tokens than it was given, and fewer unless it is the turn of a loop. -/
theorem Task.read_shorter {α : Type} (t : Task α) {ts rest : List Token} {a : α} (h : t.read ts = .ok (a, rest)) :
    rest.length ≤ ts.length ∧ (t.reader.takes = true → rest.length < ts.length) := by
  have ended_nil {o : Except Unexpected α} (h : ended o = .ok (a, rest)) : rest = [] := by
    cases o <;> cases h
    rfl
  cases t with
  | chain l e | suffixes e => exact ⟨Nat.le_of_lt_succ (out_shorter h), nofun⟩
  | statements | ending e =>
    obtain rfl := ended_nil h
    exact ⟨Nat.zero_le _, nofun⟩
  | expression =>
    obtain rfl := ended_nil h
    match ts with
    | [] => cases h
    | t :: ts => exact ⟨Nat.zero_le _, fun _ => Nat.succ_pos _⟩
  | _ => exact ⟨Nat.le_of_lt (out_shorter h), fun _ => out_shorter h⟩

/-- The unfinished calls began at earlier tokens, or at the same token as ones of higher rank. -/
def Descends (calls : List Frame) (r : Reader) (pos : Nat) : Prop :=
  ∀ f ∈ calls, f.start < pos ∨ (f.start = pos ∧ r.rank < f.reader.rank)

section

variable {α : Type} {ts rest : List Token} {calls : List Frame} {opened : List Mark} {c : Cursor} {t : Task α}

theorem Descends.start_le {r : Reader} {pos : Nat} (h : Descends calls r pos) {f : Frame} (hf : f ∈ calls) :
    f.start ≤ pos ∧ (f.reader = r → f.start < pos) := by
  rcases h f hf with hlt | ⟨rfl, hrank⟩
  · exact ⟨Nat.le_of_lt hlt, fun _ => hlt⟩
  · exact ⟨Nat.le_refl _, fun he => absurd hrank (he ▸ Nat.lt_irrefl _)⟩

/-- A call can be logged. -/
theorem Steady.called (h : Steady ts opened c rest) (hdesc : Descends calls t.reader c.pos)
    (hfits : t.Fits calls opened) :
    Steady ts opened (c.note (.called t.reader c.pos ⟨calls, opened⟩)) rest := by
  refine h.note rfl ⟨h.within, fun f hf => hdesc.start_le hf, fun he f hf hr => ?_⟩ trivial
  have hcleared : Cleared calls opened := by
    cases t with
    | expr l =>
      cases he
      exact hfits rfl
    | _ => cases he
  obtain ⟨m, hm, hstart⟩ := hcleared f hf (hr.trans he)
  have hmark := h.marks m (List.mem_of_mem_head? hm)
  exact ⟨m, hm, hmark.2, hstart, hmark.1⟩

theorem enter_eq (t : Task α) (m : Machine α) (calls : List Frame) (opened : List Mark) (c : Cursor) :
    Script.enter t m ⟨calls, opened⟩ c =
      match m ⟨⟨t.reader, c.pos⟩ :: calls, opened⟩ (c.note (.called t.reader c.pos ⟨calls, opened⟩)) with
      | some (.ok a, c') => some (.ok a, c'.note (.returned ⟨t.reader, c.pos⟩ c'.pos))
      | r => r := rfl

/-- A call follows the parser if what is called does, with the call among the unfinished ones. -/
theorem Follows.enter {m : Machine α} (h : Steady ts opened c rest) (hdesc : Descends calls t.reader c.pos)
    (hfits : t.Fits calls opened)
    (hm : ∀ c', c'.pos = c.pos → Steady ts opened c' rest →
      Follows ts m ⟨⟨t.reader, c.pos⟩ :: calls, opened⟩ c' (t.left opened) (t.read rest)) :
    Follows ts (Script.enter t m) ⟨calls, opened⟩ c (t.left opened) (t.read rest) := by
  have hbody := hm (c.note (.called t.reader c.pos ⟨calls, opened⟩)) rfl (h.called hdesc hfits)
  generalize hr : t.read rest = r at hbody ⊢
  cases hbody with
  | error herror h' => exact .error (by rw [enter_eq, herror]) h'
  | @ok a c' rest' hok h' =>
    obtain ⟨hle, hlt⟩ := t.read_shorter hr
    have hpos := h.length
    have hpos' := h'.length
    have hahead : Event.Ahead ts (.returned ⟨t.reader, c.pos⟩ c'.pos) := by
      refine ⟨h'.within, ?_, fun ht => ?_⟩
      · dsimp only
        omega
      · have := hlt ht
        dsimp only
        omega
    exact .ok (by rw [enter_eq, hok]) (h'.note rfl hahead trivial)

/-- With calls enough for the tokens that are left, a reader ends, as the parser's does. -/
theorem Task.run_follows (n : Nat) : ∀ {α : Type} (t : Task α) {calls : List Frame} {opened : List Mark} {c : Cursor}
    {rest : List Token}, Steady ts opened c rest → Descends calls t.reader c.pos → t.Fits calls opened →
    20 * rest.length + t.reader.rank < n →
      Follows ts (Script.enter t (t.run ts n)) ⟨calls, opened⟩ c (t.left opened) (t.read rest) := by
  induction n with
  | zero => exact fun _ _ _ _ _ _ _ _ hn => absurd hn (Nat.not_lt_zero _)
  | succ n ih =>
    intro α t calls opened c rest h hdesc hfits hn
    refine .enter h hdesc hfits fun c' hc' h' => t.body_follows ?_ h' ?_ hfits
    · intro β t' opened' c1 rest' h1 hless hfits'
      have hpos := h.length
      have hpos' := h1.length
      have hrank := t'.reader.rank_le
      refine ih t' h1 (fun f hf => ?_) hfits' (by omega)
      rcases List.mem_cons.mp hf with rfl | hf
      · dsimp only
        omega
      · rcases hdesc f hf with hlt | ⟨heq, hlt⟩ <;> omega
    · intro f hf
      have hpos := h.length
      rcases List.mem_cons.mp hf with rfl | hf
      · exact Nat.le_of_eq hpos
      · have := (hdesc.start_le hf).1
        omega

end

/-- How a reader ended, and what it left. -/
def outcome {α : Type} (rest : List Token) : Except Expectation α → Except Unexpected (α × List Token)
  | .ok a => .ok (a, rest)
  | .error x => .error ⟨x, rest⟩

theorem Steady.start (ts : List Token) : Steady ts [] ⟨0, []⟩ ts :=
  ⟨rfl, Nat.zero_le _, rfl, nofun, rfl, nofun⟩

/-- From the first token on, a reader ends as the parser's does, where that one does. -/
theorem Task.ends {α : Type} (t : Task α) (ts : List Token) (hfits : t.Fits [] []) :
    ∃ o c opened, t.Ends ts o c ∧ t.read ts = outcome (ts.drop c.pos) o ∧ Steady ts opened c (ts.drop c.pos) ∧
      ∀ a, o = .ok a → opened = t.left [] := by
  have hrank := t.reader.rank_le
  have hfollows : Follows ts (Script.enter t (t.run ts (20 * (ts.length + 1)))) ⟨[], []⟩ ⟨0, []⟩ (t.left [])
      (t.read ts) := t.run_follows _ (.start ts) nofun hfits (by omega)
  generalize hr : t.read ts = r at hfollows ⊢
  cases hfollows with
  | @ok a c rest hrun h =>
    obtain rfl := h.left
    exact ⟨.ok a, c, t.left [], fun n hn => runAlone_more hn hrun, rfl, h, fun _ _ => rfl⟩
  | @error x c opened rest hrun h =>
    obtain rfl := h.left
    exact ⟨.error x, c, opened, fun n hn => runAlone_more hn hrun, rfl, h, nofun⟩

end StepFlow.Script
