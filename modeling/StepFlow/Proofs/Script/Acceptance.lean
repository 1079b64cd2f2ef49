/-
  StepFlow.Proofs.Script.Acceptance — which texts are scripts and which are expressions.

  Proved: a text whose tokens are given is read as a script exactly if the grammar derives its
  lexemes from one (`parseScript_ok`), the script that is read is the only one derived, and a
  text from which nothing is derived is a syntax error (`parseTokens_error`). The same holds of
  single expressions. The tokens' positions play no part.
-/

import Mathlib
import StepFlow.Proofs.Script.Parsing

namespace StepFlow.Script

/-! ## Statements -/

/-- The end, or a separator, comes next. -/
def Ends (ts : List Token) : Prop := ∀ t ∈ ts.head?, Separates t.lexeme

theorem ends_nil : Ends [] := by intro t ht; cases ht

theorem ends_cons {t : Token} (h : Separates t.lexeme) (ts : List Token) : Ends (t :: ts) := by
  intro t' ht
  cases ht
  exact h

theorem Separates.reach {x : Lexeme} (h : Separates x) : reach x = 9 := by cases h <;> rfl

theorem Assigns.reach {x : Lexeme} {op : AssignOp} (h : Assigns x op) : reach x = 9 := by cases h <;> rfl

theorem Separates.assignOp? {x : Lexeme} (h : Separates x) : assignOp? x = none := by cases h <;> rfl

theorem Ends.loose {ts : List Token} (h : Ends ts) : Loose 9 ts := fun t ht => Nat.le_of_eq (h t ht).reach.symm

theorem statement_sound {ts rest : List Token} {s : Statement} (h : (statement ts).out = .ok (s, rest)) :
    ∃ u, ts = u ++ rest ∧ Sentence (words u) s := by
  rw [statement_out] at h
  obtain ⟨⟨e, r⟩, he, h1⟩ := then_ok h
  obtain ⟨u, rfl, hu⟩ := parseAt_sound .disjunction ts he
  match r with
  | [] =>
    cases h1
    exact ⟨u, rfl, .expr hu⟩
  | t :: r =>
    simp only [statementAfter] at h1
    cases ha : assignOp? t.lexeme with
    | none =>
      simp only [ha] at h1
      cases h1
      exact ⟨u, rfl, .expr hu⟩
    | some op =>
      simp only [ha] at h1
      cases ht : e.target? with
      | none =>
        simp only [ht] at h1
        cases h1
      | some target =>
        simp only [ht] at h1
        obtain ⟨⟨v, r'⟩, hv, h2⟩ := then_ok h1
        cases h2
        obtain ⟨w, rfl, hw⟩ := parseAt_sound .disjunction r hv
        have hu : Derives (.expr .disjunction target.expr) (words u) := by rw [target_iff.mp ht]; exact hu
        exact ⟨u ++ t :: w, by simp, by simpa using Sentence.assign hu (assigns_iff.mpr ha) hw⟩

theorem Sentence.reads {w : List Lexeme} {s : Statement} (h : Sentence w s) {ts : List Token} (hts : words ts = w)
    {rest : List Token} (hr : Ends rest) : (statement (ts ++ rest)).out = .ok (s, rest) := by
  rw [statement_out]
  cases h with
  | expr hd =>
    rw [(hd.reads ts hts).whole hr.loose, ok_then]
    match rest with
    | [] => rfl
    | t :: rest =>
      have ht := (hr t rfl).assignOp?
      simp only [statementAfter, ht]
  | @assign target op x e u v hu ha hv =>
    obtain ⟨tu, txv, rfl, htu, hxv⟩ := words_eq_append hts
    obtain ⟨p, tv, rfl, htv⟩ := words_eq_cons hxv
    have htarget := (hu.reads tu htu).upTo (t := ⟨x, p⟩) ha.reach (tv ++ rest)
    have hvalue := (hv.reads tv htv).whole hr.loose
    rw [List.append_assoc, List.cons_append, htarget, ok_then]
    simp only [statementAfter, assigns_iff.mp ha, target_iff.mpr rfl, hvalue, ok_then]

theorem Sentence.begins {w : List Lexeme} {s : Statement} (h : Sentence w s) :
    ∃ x v, w = x :: v ∧ ¬ Separates x := by
  have unopened : ∀ {x : Lexeme}, entry x ≤ 8 → ¬ Separates x := by
    intro x hx hs
    cases hs <;> exact absurd hx (by decide)
  cases h with
  | expr hd =>
    obtain ⟨x, v, hw, hx⟩ := hd.begins
    exact ⟨x, v, hw, unopened hx⟩
  | assign hd _ _ =>
    obtain ⟨x, v, rfl, hx⟩ := hd.begins
    exact ⟨x, _, rfl, unopened hx⟩

/-! ## Scripts -/

theorem statementsAfter_ok {s : Statement} {ts : List Token} {ss : List Statement}
    (h : statementsAfter s ts = .ok ss) :
    (ts = [] ∧ ss = [s]) ∨ ∃ t r more, ts = t :: r ∧ Separates t.lexeme ∧ statements r = .ok more ∧ ss = s :: more := by
  match ts with
  | [] =>
    cases h
    exact Or.inl ⟨rfl, rfl⟩
  | t :: r =>
    simp only [statementsAfter] at h
    split at h
    · rename_i hs
      obtain ⟨more, hm, h1⟩ := then_ok h
      cases h1
      rw [statements_separator hs] at hm
      exact Or.inr ⟨t, r, more, rfl, separates_iff.mpr hs, hm, rfl⟩
    · cases h

theorem statements_sound (ts : List Token) {ss : List Statement} (h : statements ts = .ok ss) :
    Program (words ts) ss := by
  match ts with
  | [] =>
    rw [statements_nil] at h
    cases h
    exact .nil
  | t :: ts =>
    by_cases hs : isSeparator t.lexeme = true
    · rw [statements_separator hs] at h
      exact .separator (separates_iff.mpr hs) (statements_sound ts h)
    · rw [statements_statement (by simpa using hs)] at h
      obtain ⟨⟨s, r⟩, h1, h2⟩ := then_ok h
      obtain ⟨u, hu, hsent⟩ := statement_sound h1
      rcases statementsAfter_ok h2 with ⟨hr, rfl⟩ | ⟨t', r', more, hr, ht', hm, rfl⟩
      · simp only at hr
        rw [hu, hr, List.append_nil]
        exact .last hsent
      · simp only at hr
        have hlt : r'.length < ts.length + 1 := shorter_after (out_shorter h1) hr
        have hmore := statements_sound r' hm
        rw [hu, hr, words_append, words_cons]
        exact .statement hsent ht' hmore
  termination_by ts.length

theorem Program.reads {w : List Lexeme} {ss : List Statement} (h : Program w ss) :
    ∀ ts, words ts = w → statements ts = .ok ss := by
  induction h with
  | nil =>
    intro ts hts
    rw [words_eq_nil hts, statements_nil]
  | @separator x w ss hx _ ih =>
    intro ts hts
    obtain ⟨p, tw, rfl, hw⟩ := words_eq_cons hts
    rw [statements_separator (separates_iff.mp hx), ih tw hw]
  | @last w s hs =>
    intro ts hts
    obtain ⟨x, v, hw, hx⟩ := hs.begins
    obtain ⟨p, tv, rfl, -⟩ := words_eq_cons (hts.trans hw)
    have hread := hs.reads hts ends_nil
    rw [List.append_nil] at hread
    have hsep : isSeparator x = false := by simpa [separates_iff] using hx
    rw [statements_statement hsep, hread]
    rfl
  | @statement x u v s ss hs hx _ ih =>
    intro ts hts
    obtain ⟨tu, txv, rfl, hu, hxv⟩ := words_eq_append hts
    obtain ⟨p, tv, rfl, hv⟩ := words_eq_cons hxv
    obtain ⟨y, w, hw, hy⟩ := hs.begins
    obtain ⟨q, tw, rfl, -⟩ := words_eq_cons (hu.trans hw)
    have hread := hs.reads hu (ends_cons (t := ⟨x, p⟩) hx tv)
    have hsep : isSeparator y = false := by simpa [separates_iff] using hy
    rw [List.cons_append] at hread ⊢
    rw [statements_statement hsep, hread, ok_then]
    simp only [statementsAfter, separates_iff.mp hx, if_true]
    rw [statements_separator (separates_iff.mp hx), ih tv hv, ok_then]

/-! ## Expressions that stand alone -/

theorem skipLines_newline (p : Position) (ts : List Token) : skipLines (⟨.newline, p⟩ :: ts) = skipLines ts := rfl

theorem skipLines_other {t : Token} (h : t.lexeme ≠ .newline) (ts : List Token) : skipLines (t :: ts) = t :: ts := by
  obtain ⟨x, p⟩ := t
  cases x <;> first | rfl | exact absurd rfl h

theorem skipLines_split (ts : List Token) :
    ∃ n u, ts = u ++ skipLines ts ∧ words u = List.replicate n .newline := by
  induction ts with
  | nil => exact ⟨0, [], rfl, rfl⟩
  | cons t ts ih =>
    obtain ⟨x, p⟩ := t
    by_cases hx : x = .newline
    · obtain ⟨n, u, hu, hw⟩ := ih
      subst hx
      refine ⟨n + 1, ⟨.newline, p⟩ :: u, ?_, by rw [words_cons, hw, List.replicate_succ]⟩
      rw [skipLines_newline, List.cons_append, ← hu]
    · exact ⟨0, [], by rw [skipLines_other hx, List.nil_append], rfl⟩

theorem skipLines_skips {u : List Token} {n : Nat} (h : words u = List.replicate n .newline) (ts : List Token) :
    skipLines (u ++ ts) = skipLines ts := by
  induction n generalizing u with
  | zero => rw [words_eq_nil h, List.nil_append]
  | succ n ih =>
    obtain ⟨p, u, rfl, hu⟩ := words_eq_cons (h.trans List.replicate_succ)
    rw [List.cons_append, skipLines_newline, ih hu]

theorem expression_sound {ts : List Token} {e : Expr} (h : expression ts = .ok e) : Lone (words ts) e := by
  obtain ⟨m, u, hu, hm⟩ := skipLines_split ts
  rw [expression_eq] at h
  split at h
  · cases h
  · rename_i t r hr
    obtain ⟨⟨e', r'⟩, he, h1⟩ := then_ok h
    obtain ⟨n, v, hv, hn⟩ := skipLines_split r'
    obtain ⟨w, hw, hd⟩ := parseAt_sound .disjunction (t :: r) he
    simp only [expressionAfter] at h1
    split at h1
    · rename_i hend
      cases h1
      have hts : ts = u ++ w ++ v := by
        rw [hend, List.append_nil] at hv
        rw [hu, hr, hw, hv, List.append_assoc]
      rw [hts, words_append, words_append, hm, hn]
      exact .around m n hd
    · cases h1

theorem Lone.reads {w : List Lexeme} {e : Expr} (h : Lone w e) {ts : List Token} (hts : words ts = w) :
    expression ts = .ok e := by
  obtain ⟨m, n, hd⟩ := h
  obtain ⟨tuw, tv, rfl, huw, hv⟩ := words_eq_append hts
  obtain ⟨tu, tw, rfl, hu, hw⟩ := words_eq_append huw
  obtain ⟨x, v, hx, hentry⟩ := hd.begins
  obtain ⟨p, tx, htw, -⟩ := words_eq_cons (hw.trans hx)
  have hnl : x ≠ .newline := by
    rintro rfl
    exact absurd hentry (by decide)
  have hskip : skipLines (tu ++ tw ++ tv) = ⟨x, p⟩ :: (tx ++ tv) := by
    rw [List.append_assoc, skipLines_skips hu, htw, List.cons_append, skipLines_other hnl]
  have hend : skipLines tv = [] := by
    have := skipLines_skips hv []
    rwa [List.append_nil] at this
  have hloose : Loose 9 tv := by
    intro t ht
    obtain ⟨r, rfl⟩ := List.head?_eq_some_iff.mp ht
    have hin : t.lexeme ∈ List.replicate n Lexeme.newline := by rw [← hv]; simp
    rw [List.eq_of_mem_replicate hin]
    exact Nat.le_refl 9
  have hread := (hd.reads tw hw).whole hloose
  rw [htw, List.cons_append] at hread
  rw [expression_eq, hskip]
  simp only [hread, ok_then, expressionAfter, hend]

/-! ## Texts -/

theorem parseTokens_ok {α : Type} {parse : List Token → Except Unexpected α} {text : String} {a : α} :
    parseTokens parse text = .ok a ↔ ∃ ts, scan text = .ok ts ∧ parse ts.list = .ok a := by
  unfold parseTokens
  cases scan text with
  | error f => simp
  | ok ts => cases hp : parse ts.list <;> simp [Except.mapError, hp]

theorem parseScript_ok {text : String} {ts : Tokens} (h : scan text = .ok ts) {ss : List Statement} :
    parseScript text = .ok ss ↔ Program (words ts.list) ss := by
  constructor
  · intro hp
    obtain ⟨ts', hscan, hs⟩ := parseTokens_ok.mp hp
    cases h.symm.trans hscan
    exact statements_sound ts.list hs
  · intro hd
    exact parseTokens_ok.mpr ⟨ts, h, hd.reads ts.list rfl⟩

theorem parseExpression_ok {text : String} {ts : Tokens} (h : scan text = .ok ts) {e : Expr} :
    parseExpression text = .ok e ↔ Lone (words ts.list) e := by
  constructor
  · intro hp
    obtain ⟨ts', hscan, hs⟩ := parseTokens_ok.mp hp
    cases h.symm.trans hscan
    exact expression_sound hs
  · intro hd
    exact parseTokens_ok.mpr ⟨ts, h, hd.reads rfl⟩

/-- What the tokens of a text are refused with is a syntax error. -/
theorem parseTokens_error {α : Type} {parse : List Token → Except Unexpected α} {text : String} {ts : Tokens}
    (h : scan text = .ok ts) (hn : ∀ a, parseTokens parse text ≠ .ok a) :
    ∃ e, parseTokens parse text = .error (.bad e) := by
  unfold parseTokens at hn ⊢
  rw [h] at hn ⊢
  cases hp : parse ts.list with
  | error u => exact ⟨_, by simp only [hp]; rfl⟩
  | ok a => exact absurd (by simp only [hp]; rfl) (hn a)

/-- A text is read as a script exactly if its lexemes are derived from one, and as an expression
    exactly if they are derived from one; there is never more than one, and where there is none
    the text is a syntax error. -/
theorem parsing_is_derivation {text : String} {ts : Tokens} (h : scan text = .ok ts) :
    (∀ ss, parseScript text = .ok ss ↔ Program (words ts.list) ss) ∧
    (∀ ss ss', Program (words ts.list) ss → Program (words ts.list) ss' → ss = ss') ∧
    ((∀ ss, ¬ Program (words ts.list) ss) → ∃ e, parseScript text = .error (.bad e)) ∧
    (∀ e, parseExpression text = .ok e ↔ Lone (words ts.list) e) ∧
    (∀ e e', Lone (words ts.list) e → Lone (words ts.list) e' → e = e') ∧
    ((∀ e, ¬ Lone (words ts.list) e) → ∃ e, parseExpression text = .error (.bad e)) := by
  refine ⟨fun ss => parseScript_ok h, fun ss ss' hs hs' => ?_, fun hn => ?_, fun e => parseExpression_ok h,
    fun e e' he he' => ?_, fun hn => ?_⟩
  · have := (hs.reads _ rfl).symm.trans (hs'.reads _ rfl)
    exact Except.ok.inj this
  · exact parseTokens_error h fun ss hp => hn ss ((parseScript_ok h).mp hp)
  · have := (he.reads rfl).symm.trans (he'.reads rfl)
    exact Except.ok.inj this
  · exact parseTokens_error h fun e hp => hn e ((parseExpression_ok h).mp hp)

theorem parsing_of_an_increment :
    scan "a.b += -x" = .ok
      ⟨[⟨.ident "a", ⟨1, 1⟩⟩, ⟨.symbol .dot, ⟨1, 2⟩⟩, ⟨.ident "b", ⟨1, 3⟩⟩, ⟨.symbol .plusAssign, ⟨1, 5⟩⟩,
        ⟨.symbol .minus, ⟨1, 8⟩⟩, ⟨.ident "x", ⟨1, 9⟩⟩], ⟨1, 10⟩⟩ ∧
    parseScript "a.b += -x" = .ok [.assign (.member (.name "a") "b") .add (.unary .neg (.name "x"))] := by
  have hscan : scan "a.b += -x" = .ok
      ⟨[⟨.ident "a", ⟨1, 1⟩⟩, ⟨.symbol .dot, ⟨1, 2⟩⟩, ⟨.ident "b", ⟨1, 3⟩⟩, ⟨.symbol .plusAssign, ⟨1, 5⟩⟩,
        ⟨.symbol .minus, ⟨1, 8⟩⟩, ⟨.ident "x", ⟨1, 9⟩⟩], ⟨1, 10⟩⟩ := by cbv
  have htarget : Derives (.expr .disjunction (Target.member (.name "a") "b").expr)
      [.ident "a", .symbol .dot, .ident "b"] :=
    (Derives.member (.name "a") (.ident "b")).loosen (by decide)
  have hvalue : Derives (.expr .disjunction (.unary .neg (.name "x"))) [.symbol .minus, .ident "x"] :=
    (Derives.signed .minus ((Derives.name "x").loosen (by decide))).loosen (by decide)
  exact ⟨hscan, ((parsing_is_derivation hscan).1 _).mpr (.last (.assign htarget .add hvalue))⟩

end StepFlow.Script
