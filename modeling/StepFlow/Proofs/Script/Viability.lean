/-
  StepFlow.Proofs.Script.Viability — what comes before a syntax error can be completed.

  Tokens begin a phrase (`Begun`) if there are lexemes that complete them to one, whatever
  tree it has. When a reader fails, it has taken tokens that begin what it reads (`Stuck`),
  and the error stands at the tokens after them: inside calls, lists, objects and indexes the
  phrase that is open is completed first, then the ones around it.

  Proved: `parseAt_stuck` and its fellows, by the recursion of the readers, and
  `statements_stuck` and `expression_stuck` for scripts and expressions.
-/

import StepFlow.Proofs.Script.Acceptance

namespace StepFlow.Script

variable {α β : Type}

theorem then_error {x : Except Unexpected α} {f : α → Except Unexpected β} {u : Unexpected}
    (h : (x >>= f) = .error u) : x = .error u ∨ ∃ a, x = .ok a ∧ f a = .error u := by
  cases x with
  | error u' =>
    cases h
    exact Or.inl rfl
  | ok a => exact Or.inr ⟨a, rfl, h⟩

theorem expect_error {s : Symbol} {ts : List Token} {x : Unexpected} (h : (expect s ts).out = .error x) :
    x.at = ts := by
  rw [expect_out] at h
  split at h
  · cases h
  · cases h
    rfl

theorem suffixes_dot_error {e : Expr} {p : Position} {ts : List Token} {x : Unexpected}
    (h : (suffixes e (⟨.symbol .dot, p⟩ :: ts)).out = .error x) :
    x.at = ts ∨ ∃ t n r, ts = t :: r ∧ Names t.lexeme n ∧ (suffixes (.member e n) r).out = .error x := by
  match ts with
  | [] =>
    rw [suffixes_nameless (by simp)] at h
    cases h
    exact Or.inl rfl
  | t :: r =>
    cases hn : propertyName? t.lexeme with
    | none =>
      rw [suffixes_nameless (by simpa using hn)] at h
      cases h
      exact Or.inl rfl
    | some n =>
      rw [suffixes_named hn] at h
      exact Or.inr ⟨t, n, r, rfl, names_iff.mpr hn, h⟩

/-! ## Phrases that are begun -/

/-- The lexemes begin a phrase of that kind. -/
def Begun (p : α → Phrase) (u : List Lexeme) : Prop := ∃ a w, Derives (p a) (u ++ w)

theorem Derives.begun {p : α → Phrase} {a : α} {u : List Lexeme} (h : Derives (p a) u) : Begun p u :=
  ⟨a, [], by rwa [List.append_nil]⟩

/-- Nothing yet begins an expression: a name may come next. -/
theorem begun_expr (l : Level) : Begun (.expr l) [] :=
  ⟨.name "x", [.ident "x"], (Derives.name "x").loosen l.looseness_pos⟩

theorem Begun.tighter {l : Level} {u : List Lexeme} (hl : l ≠ .access) (h : Begun (.expr l.tighter) u) :
    Begun (.expr l) u := by
  obtain ⟨e, w, hd⟩ := h
  exact ⟨e, w, .tighter hl hd⟩

theorem Begun.signed {l : Level} {x : Lexeme} {f : Expr → Expr} {u : List Lexeme} (hs : Signs l x f)
    (h : Begun (.expr l) u) : Begun (.expr l) (x :: u) := by
  obtain ⟨e, w, hd⟩ := h
  exact ⟨f e, w, .signed hs hd⟩

theorem Begun.joined {l : Level} {x : Lexeme} {f : Expr → Expr → Expr} {a : Expr} {w u : List Lexeme}
    (hj : Joins l x f) (ha : Derives (.expr l a) w) (h : Begun (.expr l.tighter) u) :
    Begun (.expr l) (w ++ x :: u) := by
  obtain ⟨b, v, hd⟩ := h
  exact ⟨f a b, v, by simpa using Derives.joined hj ha hd⟩

/-- A property is wanted after a point. -/
theorem begun_member {a : Expr} {w : List Lexeme} (ha : Derives (.expr .access a) w) :
    Begun (.expr .access) (w ++ [.symbol .dot]) :=
  ⟨.member a "x", [.ident "x"], by simpa using ha.member (.ident "x")⟩

theorem Begun.index {a : Expr} {w u : List Lexeme} (ha : Derives (.expr .access a) w)
    (h : Begun (.expr .disjunction) u) : Begun (.expr .access) (w ++ .symbol .openBracket :: u) := by
  obtain ⟨k, v, hd⟩ := h
  exact ⟨.index a k, v ++ [.symbol .closeBracket], by simpa using ha.index hd⟩

theorem Begun.group {u : List Lexeme} (h : Begun (.expr .disjunction) u) :
    Begun (.expr .access) (.symbol .openParen :: u) := by
  obtain ⟨e, w, hd⟩ := h
  exact ⟨e, w ++ [.symbol .closeParen], by simpa using hd.group⟩

theorem Begun.call {u : List Lexeme} (n : String) (h : Begun .items u) :
    Begun (.expr .access) (.ident n :: .symbol .openParen :: u) := by
  obtain ⟨es, w, hd⟩ := h
  exact ⟨.call n es, w ++ [.symbol .closeParen], by simpa using hd.call n⟩

theorem Begun.list {u : List Lexeme} (h : Begun .items u) :
    Begun (.expr .access) (.symbol .openBracket :: u) := by
  obtain ⟨es, w, hd⟩ := h
  exact ⟨.list es, w ++ [.symbol .closeBracket], by simpa using hd.list⟩

theorem Begun.object {u : List Lexeme} (h : Begun .pairs u) :
    Begun (.expr .access) (.symbol .openBrace :: u) := by
  obtain ⟨ps, w, hd⟩ := h
  exact ⟨.object ps, w ++ [.symbol .closeBrace], by simpa using hd.object⟩

theorem Begun.lastItem {u : List Lexeme} (h : Begun (.expr .disjunction) u) : Begun .items u := by
  obtain ⟨e, w, hd⟩ := h
  exact ⟨[e], w, .lastItem hd⟩

theorem Begun.item {e : Expr} {w u : List Lexeme} (he : Derives (.expr .disjunction e) w) (h : Begun .items u) :
    Begun .items (w ++ .symbol .comma :: u) := by
  obtain ⟨es, v, hd⟩ := h
  exact ⟨e :: es, v, by simpa using he.item hd⟩

/-- A key is begun by what begins an expression, unless that is a name with more after it. -/
theorem Begun.key {u : List Lexeme} (hn : ∀ n, u.head? ≠ some (.ident n)) (h : Begun (.expr .disjunction) u) :
    Begun .key u := by
  obtain ⟨e, w, hd⟩ := h
  match u with
  | [] => exact ⟨_, [.ident "x"], .bareKey "x"⟩
  | x :: u => exact ⟨e, w, .exprKey hn hd⟩

theorem Begun.pairKey {u : List Lexeme} (h : Begun .key u) : Begun .pairs u := by
  obtain ⟨k, w, hd⟩ := h
  obtain ⟨e, v, he⟩ := begun_expr .disjunction
  exact ⟨[(k, e)], w ++ .symbol .colon :: v, by simpa using hd.lastPair he⟩

theorem Begun.pairValue {k : Expr} {w u : List Lexeme} (hk : Derives (.key k) w) (h : Begun (.expr .disjunction) u) :
    Begun .pairs (w ++ .symbol .colon :: u) := by
  obtain ⟨e, v, hd⟩ := h
  exact ⟨[(k, e)], v, by simpa using hk.lastPair hd⟩

theorem Begun.pair {k e : Expr} {w v u : List Lexeme} (hk : Derives (.key k) w)
    (he : Derives (.expr .disjunction e) v) (h : Begun .pairs u) :
    Begun .pairs (w ++ .symbol .colon :: (v ++ .symbol .comma :: u)) := by
  obtain ⟨ps, w', hd⟩ := h
  exact ⟨(k, e) :: ps, w', by simpa using hk.pair he hd⟩

/-! ## Readers that fail -/

/-- The tokens begin a phrase of that kind, up to `rest`. -/
def Stuck (p : α → Phrase) (ts rest : List Token) : Prop := ∃ u, ts = u ++ rest ∧ Begun p (words u)

theorem stuck_here (l : Level) (ts : List Token) : Stuck (.expr l) ts ts := ⟨[], rfl, begun_expr l⟩

mutual

theorem parseAt_stuck (l : Level) (ts : List Token) {x : Unexpected} (h : (parseAt l ts).out = .error x) :
    Stuck (.expr l) ts x.at := by
  match ts with
  | [] =>
    rw [parseAt_nil] at h
    exact parseBelow_stuck l [] h
  | t :: ts =>
    cases hs : l.sign? t.lexeme with
    | none =>
      rw [parseAt_unsigned hs] at h
      exact parseBelow_stuck l (t :: ts) h
    | some f =>
      rw [parseAt_signed hs] at h
      rcases then_error h with h | ⟨r, _, h⟩
      · obtain ⟨u, hu, hb⟩ := parseAt_stuck l ts h
        exact ⟨t :: u, by simp [← hu], hb.signed (signs_iff.mpr hs)⟩
      · cases h
  termination_by (ts.length, 2 * l.looseness + 1)

theorem parseBelow_stuck (l : Level) (ts : List Token) {x : Unexpected} (h : (parseBelow l ts).out = .error x) :
    Stuck (.expr l) ts x.at := by
  have hpos := l.looseness_pos
  by_cases hl : l = .access
  · subst hl
    rw [parseBelow_access] at h
    rcases then_error h with h | ⟨⟨a, r⟩, ha, h⟩
    · exact primary_stuck ts h
    · have hlt := out_shorter ha
      obtain ⟨u, hu, hd⟩ := primary_sound ts ha
      obtain ⟨v, hv, hb⟩ := suffixes_stuck r hd h
      exact ⟨u ++ v, by simp [hu, ← hv], by simpa using hb⟩
  · have := Level.looseness_tighter hl
    rw [parseBelow_chain hl] at h
    rcases then_error h with h | ⟨⟨a, r⟩, ha, h⟩
    · obtain ⟨u, hu, hb⟩ := parseAt_stuck l.tighter ts h
      exact ⟨u, hu, hb.tighter hl⟩
    · have hlt := out_shorter ha
      obtain ⟨u, hu, hd⟩ := parseAt_sound l.tighter ts ha
      obtain ⟨v, hv, hb⟩ := chain_stuck l r (.tighter hl hd) h
      exact ⟨u ++ v, by simp [hu, ← hv], by simpa using hb⟩
  termination_by (ts.length, 2 * l.looseness)

theorem chain_stuck (l : Level) (ts : List Token) {a : Expr} {w : List Lexeme} {x : Unexpected}
    (hd : Derives (.expr l a) w) (h : (chain l a ts).out = .error x) :
    ∃ u, ts = u ++ x.at ∧ Begun (.expr l) (w ++ words u) := by
  match ts with
  | [] =>
    rw [chain_nil] at h
    cases h
  | t :: ts =>
    cases ho : l.operator? t.lexeme with
    | none =>
      rw [chain_stops ho] at h
      cases h
    | some f =>
      have hj := joins_iff.mpr ho
      rw [chain_goes_on ho] at h
      rcases then_error h with h | ⟨⟨b, r⟩, hb, h⟩
      · obtain ⟨u, hu, hb⟩ := parseAt_stuck l.tighter ts h
        exact ⟨t :: u, by simp [← hu], hb.joined hj hd⟩
      · have hlt := out_shorter hb
        obtain ⟨u, hu, hb⟩ := parseAt_sound l.tighter ts hb
        obtain ⟨v, hv, hb⟩ := chain_stuck l r (.joined hj hd hb) h
        exact ⟨t :: (u ++ v), by simp [hu, ← hv], by simpa using hb⟩
  termination_by (ts.length, 0)

theorem suffixes_stuck (ts : List Token) {a : Expr} {w : List Lexeme} {x : Unexpected}
    (hd : Derives (.expr .access a) w) (h : (suffixes a ts).out = .error x) :
    ∃ u, ts = u ++ x.at ∧ Begun (.expr .access) (w ++ words u) := by
  match ts with
  | [] =>
    rw [suffixes_nil] at h
    cases h
  | ⟨y, p⟩ :: ts =>
    by_cases hdot : y = .symbol .dot
    · rw [hdot] at h ⊢
      rcases suffixes_dot_error h with hat | ⟨t, n, r, hr, hn, h1⟩
      · exact ⟨[⟨.symbol .dot, p⟩], by simp [hat], begun_member hd⟩
      · obtain ⟨u, hu, hb⟩ := suffixes_stuck r (.member hd hn) h1
        exact ⟨⟨.symbol .dot, p⟩ :: t :: u, by simp [hr, ← hu], by simpa using hb⟩
    · by_cases hb : y = .symbol .openBracket
      · rw [hb] at h ⊢
        rw [suffixes_index] at h
        rcases then_error h with h | ⟨⟨k, r⟩, hk, h⟩
        · obtain ⟨u, hu, hb⟩ := parseAt_stuck .disjunction ts h
          exact ⟨⟨.symbol .openBracket, p⟩ :: u, by simp [← hu], by simpa using hb.index hd⟩
        · obtain ⟨u, hu, hdk⟩ := parseAt_sound .disjunction ts hk
          rcases then_error h with h | ⟨⟨⟨⟩, r'⟩, hc, h⟩
          · have hat := expect_error h
            exact ⟨⟨.symbol .openBracket, p⟩ :: u, by simp [hu, hat], by simpa using (Derives.begun hdk).index hd⟩
          · obtain ⟨q, hq⟩ := expect_ok hc
            have hlt := shorter_after (out_shorter hk) hq
            obtain ⟨v, hv, hb⟩ := suffixes_stuck r' (.index hd hdk) h
            exact ⟨⟨.symbol .openBracket, p⟩ :: (u ++ ⟨.symbol .closeBracket, q⟩ :: v), by simp_all,
              by simpa using hb⟩
      · rw [suffixes_stop a hdot hb] at h
        cases h
  termination_by (ts.length, 0)

theorem primary_stuck (ts : List Token) {x : Unexpected} (h : (primary ts).out = .error x) :
    Stuck (.expr .access) ts x.at := by
  match ts with
  | [] =>
    rw [primary_nil] at h
    cases h
    exact stuck_here _ _
  | ⟨.number n, p⟩ :: ts =>
    rw [primary_number] at h
    cases h
  | ⟨.string s, p⟩ :: ts =>
    rw [primary_string] at h
    cases h
  | ⟨.keyword k, p⟩ :: ts =>
    rw [primary_keyword] at h
    split at h
    · cases h
    · cases h
      exact stuck_here _ _
  | ⟨.ident n, p⟩ :: ts =>
    cases ho : after? .openParen ts with
    | none =>
      rw [primary_name n p ho] at h
      cases h
    | some r =>
      rw [primary_call n p ho] at h
      obtain ⟨q, hq⟩ := after?_eq_some ho
      have hlt := after?_length ho
      rcases then_error h with h | ⟨_, _, h⟩
      · obtain ⟨u, hu, hb⟩ := items_stuck .closeParen r h
        exact ⟨⟨.ident n, p⟩ :: ⟨.symbol .openParen, q⟩ :: u, by simp [hq, ← hu], hb.call n⟩
      · cases h
  | ⟨.symbol s, p⟩ :: ts =>
    by_cases hp : s = .openParen
    · rw [hp] at h ⊢
      rw [primary_group] at h
      rcases then_error h with h | ⟨⟨a, r⟩, ha, h⟩
      · obtain ⟨u, hu, hb⟩ := parseAt_stuck .disjunction ts h
        exact ⟨⟨.symbol .openParen, p⟩ :: u, by simp [← hu], hb.group⟩
      · obtain ⟨u, hu, hd⟩ := parseAt_sound .disjunction ts ha
        rcases then_error h with h | ⟨_, _, h⟩
        · have hat := expect_error h
          exact ⟨⟨.symbol .openParen, p⟩ :: u, by simp [hu, hat], (Derives.begun hd).group⟩
        · cases h
    by_cases hb : s = .openBracket
    · rw [hb] at h ⊢
      rw [primary_list] at h
      rcases then_error h with h | ⟨_, _, h⟩
      · obtain ⟨u, hu, hb⟩ := items_stuck .closeBracket ts h
        exact ⟨⟨.symbol .openBracket, p⟩ :: u, by simp [← hu], hb.list⟩
      · cases h
    by_cases hc : s = .openBrace
    · rw [hc] at h ⊢
      rw [primary_object] at h
      rcases then_error h with h | ⟨_, _, h⟩
      · obtain ⟨u, hu, hb⟩ := pairs_stuck ts h
        exact ⟨⟨.symbol .openBrace, p⟩ :: u, by simp [← hu], hb.object⟩
      · cases h
    rw [primary_symbol (by cases s <;> first | rfl | contradiction)] at h
    cases h
    exact stuck_here _ _
  | ⟨.newline, p⟩ :: ts =>
    rw [primary_newline] at h
    cases h
    exact stuck_here _ _
  termination_by (ts.length, 1)

theorem items_stuck (close : Symbol) (ts : List Token) {x : Unexpected} (h : (items close ts).out = .error x) :
    Stuck .items ts x.at := by
  cases hc : after? close ts with
  | some r =>
    rw [items_closed hc] at h
    cases h
  | none =>
    rw [items_open hc] at h
    rcases then_error h with h | ⟨⟨e, r⟩, he, h⟩
    · obtain ⟨u, hu, hb⟩ := parseAt_stuck .disjunction ts h
      exact ⟨u, hu, hb.lastItem⟩
    · have hlt := out_shorter he
      obtain ⟨u, hu, hd⟩ := parseAt_sound .disjunction ts he
      simp only [itemsAfter] at h
      cases hm : after? .comma r with
      | some r' =>
        simp only [hm] at h
        obtain ⟨q, hq⟩ := after?_eq_some hm
        have hlt := shorter_after hlt hq
        rcases then_error h with h | ⟨_, _, h⟩
        · obtain ⟨v, hv, hb⟩ := items_stuck close r' h
          exact ⟨u ++ ⟨.symbol .comma, q⟩ :: v, by simp [hu, hq, ← hv], by simpa using hb.item hd⟩
        · cases h
      | none =>
        simp only [hm] at h
        rcases then_error h with h | ⟨_, _, h⟩
        · have hat := expect_error h
          exact ⟨u, by simp [hu, hat], (Derives.begun hd).lastItem⟩
        · cases h
  termination_by (ts.length, 2 * Level.disjunction.looseness + 2)

theorem key_stuck (ts : List Token) {x : Unexpected} (h : (key ts).out = .error x) : Stuck .key ts x.at := by
  by_cases hn : ∀ t ∈ ts.head?, ∀ n, t.lexeme ≠ .ident n
  · rw [key_expr hn] at h
    obtain ⟨u, hu, hb⟩ := parseAt_stuck .disjunction ts h
    refine ⟨u, hu, hb.key fun n hh => ?_⟩
    match u with
    | [] => cases hh
    | t :: u => exact hn t (by rw [hu]; rfl) n (Option.some.inj hh)
  · match ts with
    | [] => exact absurd (by simp) hn
    | ⟨.ident n, p⟩ :: ts =>
      rw [key_bare] at h
      cases h
    | ⟨.newline, p⟩ :: ts => exact absurd (by simp) hn
    | ⟨.number _, p⟩ :: ts => exact absurd (by simp) hn
    | ⟨.string _, p⟩ :: ts => exact absurd (by simp) hn
    | ⟨.keyword _, p⟩ :: ts => exact absurd (by simp) hn
    | ⟨.symbol _, p⟩ :: ts => exact absurd (by simp) hn
  termination_by (ts.length, 2 * Level.disjunction.looseness + 2)

theorem pairs_stuck (ts : List Token) {x : Unexpected} (h : (pairs ts).out = .error x) : Stuck .pairs ts x.at := by
  cases hc : after? .closeBrace ts with
  | some r =>
    rw [pairs_closed hc] at h
    cases h
  | none =>
    rw [pairs_open hc] at h
    rcases then_error h with h | ⟨⟨k, r⟩, hk, h⟩
    · obtain ⟨u, hu, hb⟩ := key_stuck ts h
      exact ⟨u, hu, hb.pairKey⟩
    · obtain ⟨u, hu, hdk⟩ := key_sound ts hk
      rcases then_error h with h | ⟨⟨⟨⟩, r1⟩, hx, h⟩
      · have hat := expect_error h
        exact ⟨u, by simp [hu, hat], (Derives.begun hdk).pairKey⟩
      · obtain ⟨q, hq⟩ := expect_ok hx
        have hlt := shorter_after (out_shorter hk) hq
        rcases then_error h with h | ⟨⟨e, r2⟩, he, h⟩
        · obtain ⟨v, hv, hb⟩ := parseAt_stuck .disjunction r1 h
          exact ⟨u ++ ⟨.symbol .colon, q⟩ :: v, by simp_all, by simpa using hb.pairValue hdk⟩
        · have hlt' := Nat.lt_trans (out_shorter he) hlt
          obtain ⟨v, hv, hde⟩ := parseAt_sound .disjunction r1 he
          simp only [pairsAfter] at h
          cases hm : after? .comma r2 with
          | some r3 =>
            simp only [hm] at h
            obtain ⟨q', hq'⟩ := after?_eq_some hm
            have hlt := shorter_after hlt' hq'
            rcases then_error h with h | ⟨_, _, h⟩
            · obtain ⟨w, hw, hb⟩ := pairs_stuck r3 h
              exact ⟨u ++ ⟨.symbol .colon, q⟩ :: (v ++ ⟨.symbol .comma, q'⟩ :: w), by simp_all,
                by simpa using hb.pair hdk hde⟩
            · cases h
          | none =>
            simp only [hm] at h
            rcases then_error h with h | ⟨_, _, h⟩
            · have hat := expect_error h
              exact ⟨u ++ ⟨.symbol .colon, q⟩ :: v, by simp_all, by simpa using (Derives.begun hde).pairValue hdk⟩
            · cases h
  termination_by (ts.length, 2 * Level.disjunction.looseness + 3)

end

/-! ## Scripts and expressions -/

/-- The lexemes begin a statement. -/
def SentenceBegun (u : List Lexeme) : Prop := ∃ s w, Sentence (u ++ w) s

/-- The lexemes begin a script. -/
def ProgramBegun (u : List Lexeme) : Prop := ∃ ss w, Program (u ++ w) ss

/-- The lexemes begin an expression that stands alone. -/
def LoneBegun (u : List Lexeme) : Prop := ∃ e w, Lone (u ++ w) e

theorem Begun.sentence {u : List Lexeme} (h : Begun (.expr .disjunction) u) : SentenceBegun u := by
  obtain ⟨e, w, hd⟩ := h
  exact ⟨.expr e, w, .expr hd⟩

theorem statement_stuck {ts : List Token} {x : Unexpected} (h : (statement ts).out = .error x) :
    ∃ u, ts = u ++ x.at ∧ SentenceBegun (words u) := by
  rw [statement_out] at h
  rcases then_error h with h1 | ⟨⟨e, r⟩, he, h1⟩
  · obtain ⟨u, hu, hb⟩ := parseAt_stuck .disjunction ts h1
    exact ⟨u, hu, hb.sentence⟩
  · obtain ⟨u, rfl, hd⟩ := parseAt_sound .disjunction ts he
    match r with
    | [] => cases h1
    | t :: r =>
      simp only [statementAfter] at h1
      cases ha : assignOp? t.lexeme with
      | none =>
        simp only [ha] at h1
        cases h1
      | some op =>
        simp only [ha] at h1
        cases ht : e.target? with
        | none =>
          simp only [ht] at h1
          cases h1
          exact ⟨u, rfl, (Derives.begun hd).sentence⟩
        | some target =>
          simp only [ht] at h1
          have hd : Derives (.expr .disjunction target.expr) (words u) := by rwa [target_iff.mp ht]
          rcases then_error h1 with h2 | ⟨_, _, h2⟩
          · obtain ⟨v, hv, b, w, hb⟩ := parseAt_stuck .disjunction r h2
            exact ⟨u ++ t :: v, by simp [← hv], _, w, by simpa using Sentence.assign hd (assigns_iff.mpr ha) hb⟩
          · cases h2

theorem statements_stuck (ts : List Token) {x : Unexpected} (h : statements ts = .error x) :
    ∃ u, ts = u ++ x.at ∧ ProgramBegun (words u) := by
  match ts with
  | [] =>
    rw [statements_nil] at h
    cases h
  | t :: ts =>
    by_cases hs : isSeparator t.lexeme = true
    · rw [statements_separator hs] at h
      obtain ⟨u, hu, ss, w, hp⟩ := statements_stuck ts h
      exact ⟨t :: u, by simp [← hu], ss, w, .separator (separates_iff.mpr hs) hp⟩
    · rw [statements_statement (by simpa using hs)] at h
      rcases then_error h with h | ⟨⟨s, r⟩, h1, h⟩
      · obtain ⟨u, hu, s, w, hsent⟩ := statement_stuck h
        exact ⟨u, hu, [s], w, .last hsent⟩
      · obtain ⟨u, hu, hsent⟩ := statement_sound h1
        match r with
        | [] => cases h
        | t' :: r =>
          simp only [statementsAfter] at h
          split at h
          · rename_i hs'
            rcases then_error h with h | ⟨_, _, h⟩
            · rw [statements_separator hs'] at h
              have hlt : r.length < ts.length + 1 := shorter_after (out_shorter h1) rfl
              obtain ⟨v, hv, ss, w, hp⟩ := statements_stuck r h
              exact ⟨u ++ t' :: v, by simp [hu, ← hv], s :: ss, w,
                by simpa using Program.statement hsent (separates_iff.mpr hs') hp⟩
            · cases h
          · cases h
            exact ⟨u, hu, [s], [], by simpa using Program.last hsent⟩
  termination_by ts.length

theorem Begun.lone {u : List Lexeme} (n : Nat) (h : Begun (.expr .disjunction) u) :
    LoneBegun (List.replicate n .newline ++ u) := by
  obtain ⟨e, w, hd⟩ := h
  exact ⟨e, w, by simpa using Lone.around n 0 hd⟩

theorem expression_stuck {ts : List Token} {x : Unexpected} (h : expression ts = .error x) :
    ∃ u, ts = u ++ x.at ∧ LoneBegun (words u) := by
  obtain ⟨m, u, hu, hm⟩ := skipLines_split ts
  rw [expression_eq] at h
  split at h
  · rename_i hr
    cases h
    rw [hr] at hu
    exact ⟨u, hu, by simpa [hm] using (begun_expr .disjunction).lone m⟩
  · rename_i t r hr
    rcases then_error h with h | ⟨⟨e, r'⟩, he, h⟩
    · obtain ⟨v, hv, hb⟩ := parseAt_stuck .disjunction (t :: r) h
      exact ⟨u ++ v, by rw [List.append_assoc, ← hv, ← hr, ← hu], by simpa [hm] using hb.lone m⟩
    · obtain ⟨v, hv, hd⟩ := parseAt_sound .disjunction (t :: r) he
      obtain ⟨n, w, hw, hn⟩ := skipLines_split r'
      simp only [expressionAfter] at h
      split at h
      · cases h
      · cases h
        refine ⟨u ++ (v ++ w), by rw [List.append_assoc, List.append_assoc, ← hw, ← hv, ← hr, ← hu], e, [], ?_⟩
        simpa [hm, hn] using Lone.around m n hd

end StepFlow.Script
