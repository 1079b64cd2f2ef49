/-
  StepFlow.Proofs.Script.Agreement — a text read as an expression, and read as a script.

  An expression stands alone between line feeds; a script's statements stand between line feeds
  and semicolons. No phrase holds either (`Derives.unseparated`), so a semicolon can only be one
  that separates.

  Proved, for every text:
  (1) `lone_iff_program`: lexemes without a semicolon are a script of one expression exactly if
      they are that expression alone.
  (2) `execute_expression`: running such a script is evaluating the expression, but for the value.
  (3) `expressions_are_scripts`: both for texts; so such a script changes nothing, and fails as the
      expression does.
-/

import StepFlow.Proofs.Script.Joining
import StepFlow.Proofs.Script.Purity

namespace StepFlow.Script

/-! ## Separators -/

theorem Joins.unseparated {l : Level} {x : Lexeme} {f : Expr → Expr → Expr} (h : Joins l x f) : ¬ Separates x := by
  intro hs
  cases h <;> cases hs

theorem Signs.unseparated {l : Level} {x : Lexeme} {f : Expr → Expr} (h : Signs l x f) : ¬ Separates x := by
  intro hs
  cases h <;> cases hs

theorem Names.unseparated {x : Lexeme} {n : String} (h : Names x n) : ¬ Separates x := by
  intro hs
  cases h <;> cases hs

/-- No phrase holds a separator. -/
theorem Derives.unseparated {p : Phrase} {w : List Lexeme} (h : Derives p w) : ∀ x ∈ w, ¬ Separates x := by
  have sign : ∀ s : Symbol, s ≠ .semicolon → ¬ Separates (.symbol s) := by
    rintro s hs ⟨⟩
    exact hs rfl
  induction h with
  | tighter _ _ ih | lastItem _ ih | exprKey _ _ ih => exact ih
  | joined hx _ _ iha ihb => simpa [or_imp, forall_and] using ⟨iha, hx.unseparated, ihb⟩
  | signed hx _ ih => simpa [or_imp, forall_and] using ⟨hx.unseparated, ih⟩
  | member _ hx ih => simpa [or_imp, forall_and] using ⟨ih, sign .dot (by decide), hx.unseparated⟩
  | index _ _ iha ihb =>
    simpa [or_imp, forall_and] using ⟨iha, sign .openBracket (by decide), ihb, sign .closeBracket (by decide)⟩
  | call n _ ih =>
    have hn : ¬ Separates (.ident n) := by rintro ⟨⟩
    simpa [or_imp, forall_and] using ⟨hn, sign .openParen (by decide), ih, sign .closeParen (by decide)⟩
  | group _ ih => simpa [or_imp, forall_and] using ⟨sign .openParen (by decide), ih, sign .closeParen (by decide)⟩
  | list _ ih => simpa [or_imp, forall_and] using ⟨sign .openBracket (by decide), ih, sign .closeBracket (by decide)⟩
  | object _ ih => simpa [or_imp, forall_and] using ⟨sign .openBrace (by decide), ih, sign .closeBrace (by decide)⟩
  | number | string | word | name | bareKey =>
    intro x hx
    rw [List.mem_singleton.mp hx]
    rintro ⟨⟩
  | noItems | noPairs => intro x hx; cases hx
  | item _ _ iha ihb => simpa [or_imp, forall_and] using ⟨iha, sign .comma (by decide), ihb⟩
  | lastPair _ _ iha ihb => simpa [or_imp, forall_and] using ⟨iha, sign .colon (by decide), ihb⟩
  | pair _ _ _ ihk ihe ihp =>
    simpa [or_imp, forall_and] using ⟨ihk, sign .colon (by decide), ihe, sign .comma (by decide), ihp⟩

/-! ## The two readings -/

/-- An expression alone is a script of one statement. -/
theorem Lone.program {w : List Lexeme} {e : Expr} (h : Lone w e) : Program w [.expr e] := by
  have feeds : ∀ (n : Nat) {v : List Lexeme} {ss : List Statement},
      Program v ss → Program (List.replicate n .newline ++ v) ss := by
    intro n v ss hv
    induction n with
    | zero => exact hv
    | succ n ih => exact .separator .newline ih
  obtain ⟨m, n, hd⟩ := h
  rw [List.append_assoc]
  refine feeds m ?_
  cases n with
  | zero => simpa using Program.last (.expr hd)
  | succ n => exact .statement (.expr hd) .newline (by simpa using feeds n .nil)

/-- A script without statements and semicolons consists of line feeds. -/
theorem Program.empty {w : List Lexeme} (h : Program w []) (hn : .symbol .semicolon ∉ w) :
    w = List.replicate w.length .newline := by
  generalize hs : ([] : List Statement) = ss at h
  induction h with
  | nil => rfl
  | separator hx _ ih =>
    rw [List.mem_cons, not_or] at hn
    cases hx with
    | newline => exact congrArg (Lexeme.newline :: ·) (ih hn.2 hs)
    | semicolon => exact absurd rfl hn.1
  | last => cases hs
  | statement => cases hs

/-- A script of one expression is that expression alone, if it has no semicolon. -/
theorem Program.lone {w : List Lexeme} {e : Expr} (h : Program w [.expr e]) (hn : .symbol .semicolon ∉ w) :
    Lone w e := by
  generalize hs : [Statement.expr e] = ss at h
  induction h with
  | nil => cases hs
  | separator hx _ ih =>
    rw [List.mem_cons, not_or] at hn
    cases hx with
    | newline =>
      obtain ⟨m, n, hd⟩ := ih hn.2 hs
      exact .around (m + 1) n hd
    | semicolon => exact absurd rfl hn.1
  | last hsent =>
    cases hs
    cases hsent with
    | expr hd => simpa using Lone.around 0 0 hd
  | @statement x u v _ _ hsent hx hv _ =>
    cases hs
    rw [List.mem_append, List.mem_cons, not_or, not_or] at hn
    obtain ⟨-, hnx, hnv⟩ := hn
    cases hx with
    | semicolon => exact absurd rfl hnx
    | newline =>
      rw [hv.empty hnv]
      cases hsent with
      | expr hd => simpa [List.replicate_succ] using Lone.around 0 (v.length + 1) hd

/-- The lexemes of one expression alone are those of a script of that one statement, without semicolons. -/
theorem lone_iff_program {w : List Lexeme} {e : Expr} :
    Lone w e ↔ Program w [.expr e] ∧ .symbol .semicolon ∉ w := by
  constructor
  · intro h
    refine ⟨h.program, fun hm => ?_⟩
    obtain ⟨m, n, hd⟩ := h
    rcases List.mem_append.mp hm with hm | hm
    · rcases List.mem_append.mp hm with hm | hm
      · cases List.eq_of_mem_replicate hm
      · exact hd.unseparated _ hm .semicolon
    · cases List.eq_of_mem_replicate hm
  · rintro ⟨h, hn⟩
    exact h.lone hn

/-! ## Texts -/

theorem parseExpression_iff {text : String} {e : Expr} :
    parseExpression text = .ok e ↔ parseScript text = .ok [.expr e] ∧
      ∃ ts, scan text = .ok ts ∧ ∀ t ∈ ts.list, t.lexeme ≠ .symbol .semicolon := by
  have hwords : ∀ ts : Tokens, .symbol .semicolon ∉ words ts.list ↔ ∀ t ∈ ts.list, t.lexeme ≠ .symbol .semicolon := by
    intro ts
    simp [words]
  constructor
  · intro h
    obtain ⟨ts, hs, -⟩ := parseTokens_ok.mp h
    obtain ⟨hp, hn⟩ := lone_iff_program.mp ((parseExpression_ok hs).mp h)
    exact ⟨(parseScript_ok hs).mpr hp, ts, hs, (hwords ts).mp hn⟩
  · rintro ⟨h, ts, hs, hn⟩
    exact (parseExpression_ok hs).mpr (lone_iff_program.mpr ⟨(parseScript_ok hs).mp h, (hwords ts).mpr hn⟩)

/-- Running a script of one expression is evaluating it, and forgetting the value. -/
theorem execute_expression {text : String} {e : Expr} (h : parseExpression text = .ok e) (readonly : List String)
    (m : Memory) :
    execute text readonly m =
      (((evaluate text m.env).run m.heap).1.map fun _ => (), { m with heap := ((evaluate text m.env).run m.heap).2 }) := by
  have heval : evaluate text m.env = eval m.env e := by
    unfold evaluate
    rw [h]
    rfl
  rw [heval, execute_ok (parseExpression_iff.mp h).1, exec, Exec.bind_run, execStatement, Exec.bind_run, onHeap_run]
  cases (eval m.env e).run m.heap with
  | mk r k => cases r <;> rfl

/-- A text is read as an expression exactly if it is read as a script of that one statement, and its
    tokens have no semicolon. Running that script changes no variable and no container, and fails
    exactly if the evaluation of the expression fails, with the same error. -/
theorem expressions_are_scripts (text : String) (e : Expr) :
    (parseExpression text = .ok e ↔ parseScript text = .ok [.expr e] ∧
      ∃ ts, scan text = .ok ts ∧ ∀ t ∈ ts.list, t.lexeme ≠ .symbol .semicolon) ∧
    (parseExpression text = .ok e → ∀ readonly (m : Memory),
      m.Keeps (execute text readonly m).2 ∧
      ∀ f, (execute text readonly m).1 = .error f ↔ ((evaluate text m.env).run m.heap).1 = .error f) := by
  refine ⟨parseExpression_iff, fun h readonly m => ?_⟩
  have hkeeps := evaluate_spares text m.env m.heap
  rw [execute_expression h]
  refine ⟨⟨rfl, hkeeps⟩, fun f => ?_⟩
  cases ((evaluate text m.env).run m.heap).1 with
  | error f' =>
    constructor <;> intro hf <;> cases hf <;> rfl
  | ok v =>
    constructor <;> intro hf <;> cases hf

/-- Line feeds around an index that is out of range. -/
theorem script_of_an_index :
    let text := "\n[1][y]\n"
    let e : Expr := .index (.list [.literal (.int 1)]) (.name "y")
    let m : Memory := ⟨[("y", .int 1)], .empty⟩
    parseExpression text = .ok e ∧ parseScript text = .ok [.expr e] ∧
      m.Keeps (execute text [] m).2 ∧
      (execute text [] m).1 = .error (.run (.outOfRange "1")) := by
  intro text e m
  have hp : parseExpression text = .ok e := by cbv
  obtain ⟨hiff, hruns⟩ := expressions_are_scripts text e
  obtain ⟨hkeeps, hfails⟩ := hruns hp [] m
  have heval : ((evaluate text m.env).run m.heap).1 = .error (.run (.outOfRange "1")) := by cbv
  exact ⟨hp, (hiff.mp hp).1, hkeeps, (hfails _).mpr heval⟩

end StepFlow.Script
