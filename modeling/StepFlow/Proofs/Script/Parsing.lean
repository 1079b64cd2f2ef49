/-
  StepFlow.Proofs.Script.Parsing — the readers read what the grammar derives, and all of it.

  Proved:
  - Soundness (`parseAt_sound` and its fellows, by the recursion of the readers): the tokens a
    reader takes are derived from the tree it gives.
  - Completeness (`Derives.reads`, by induction on the derivation): a reader given a derived
    phrase reads it and stops after it, whatever follows that does not go on with it. A chain is
    read one operand at a time, so what is shown of a level is how its reader goes on
    after the phrase (`resumed`), and the next lexeme decides that (`reach`).
-/

import StepFlow.Proofs.Script.Grammar
import StepFlow.Proofs.Script.Reading

namespace StepFlow.Script

/-! ## Soundness -/

theorem names_iff {x : Lexeme} {n : String} : Names x n ↔ propertyName? x = some n := by
  constructor
  · intro h; cases h <;> rfl
  · intro h
    unfold propertyName? at h
    split at h <;> cases h <;> constructor

/-- The tokens begin with a phrase, and go on with `rest`. -/
def Holds (p : Phrase) (ts rest : List Token) : Prop := ∃ u, ts = u ++ rest ∧ Derives p (words u)

theorem expect_ok {s : Symbol} {ts rest : List Token} {a : Unit} (h : (expect s ts).out = .ok (a, rest)) :
    ∃ p, ts = ⟨.symbol s, p⟩ :: rest := by
  rw [expect_out] at h
  split at h
  · rename_i r hr
    cases h
    exact after?_eq_some hr
  · cases h

theorem suffixes_dot_ok {e e' : Expr} {p : Position} {ts rest : List Token}
    (h : (suffixes e (⟨.symbol .dot, p⟩ :: ts)).out = .ok (e', rest)) :
    ∃ t n r, ts = t :: r ∧ Names t.lexeme n ∧ (suffixes (.member e n) r).out = .ok (e', rest) := by
  match ts with
  | [] =>
    rw [suffixes_nameless (by simp)] at h
    cases h
  | t :: r =>
    cases hn : propertyName? t.lexeme with
    | none =>
      rw [suffixes_nameless (by simpa using hn)] at h
      cases h
    | some n =>
      rw [suffixes_named hn] at h
      exact ⟨t, n, r, rfl, names_iff.mpr hn, h⟩

/-- A key is bare, or it is an expression that does not begin with a name. -/
theorem key_ok {ts rest : List Token} {e : Expr} (h : (key ts).out = .ok (e, rest)) :
    (∃ n p, ts = ⟨.ident n, p⟩ :: rest ∧ e = .literal (.str n)) ∨
      ((∀ n, (words ts).head? ≠ some (.ident n)) ∧ (parseAt .disjunction ts).out = .ok (e, rest)) := by
  match ts with
  | [] =>
    rw [key_expr (by simp)] at h
    exact Or.inr ⟨by simp, h⟩
  | ⟨x, p⟩ :: ts =>
    cases x with
    | ident n =>
      rw [key_bare] at h
      cases h
      exact Or.inl ⟨n, p, rfl, rfl⟩
    | _ =>
      rw [key_expr (by simp)] at h
      exact Or.inr ⟨by simp, h⟩

theorem shorter_after {t : Token} {r r' : List Token} {n : Nat} (h : r.length < n) (hr : r = t :: r') :
    r'.length < n := by
  subst hr
  exact Nat.lt_of_succ_lt h

mutual

theorem parseAt_sound (l : Level) (ts : List Token) {e : Expr} {rest : List Token}
    (h : (parseAt l ts).out = .ok (e, rest)) : Holds (.expr l e) ts rest := by
  match ts with
  | [] =>
    rw [parseAt_nil] at h
    exact parseBelow_sound l [] h
  | t :: ts =>
    cases hs : l.sign? t.lexeme with
    | none =>
      rw [parseAt_unsigned hs] at h
      exact parseBelow_sound l (t :: ts) h
    | some f =>
      rw [parseAt_signed hs] at h
      obtain ⟨⟨e', r⟩, he, hr⟩ := then_ok h
      cases hr
      obtain ⟨u, hu, hd⟩ := parseAt_sound l ts he
      exact ⟨t :: u, by simp [hu], .signed (signs_iff.mpr hs) hd⟩
  termination_by (ts.length, 2 * l.looseness + 1)

theorem parseBelow_sound (l : Level) (ts : List Token) {e : Expr} {rest : List Token}
    (h : (parseBelow l ts).out = .ok (e, rest)) : Holds (.expr l e) ts rest := by
  have hpos := l.looseness_pos
  by_cases hl : l = .access
  · rw [hl, parseBelow_access] at h
    obtain ⟨⟨a, r⟩, ha, hr⟩ := then_ok h
    have hlt := out_shorter ha
    obtain ⟨u, hu, hd⟩ := primary_sound ts ha
    obtain ⟨v, hv, hd⟩ := suffixes_sound r hd hr
    exact ⟨u ++ v, by simp [hu, hv], by simpa [hl] using hd⟩
  · have := Level.looseness_tighter hl
    rw [parseBelow_chain hl] at h
    obtain ⟨⟨a, r⟩, ha, hr⟩ := then_ok h
    have hlt := out_shorter ha
    obtain ⟨u, hu, hd⟩ := parseAt_sound l.tighter ts ha
    obtain ⟨v, hv, hd⟩ := chain_sound l r (.tighter hl hd) hr
    exact ⟨u ++ v, by simp [hu, hv], by simpa using hd⟩
  termination_by (ts.length, 2 * l.looseness)

theorem chain_sound (l : Level) (ts : List Token) {a e : Expr} {w : List Lexeme} {rest : List Token}
    (hd : Derives (.expr l a) w) (h : (chain l a ts).out = .ok (e, rest)) :
    ∃ u, ts = u ++ rest ∧ Derives (.expr l e) (w ++ words u) := by
  match ts with
  | [] =>
    rw [chain_nil] at h
    cases h
    exact ⟨[], rfl, by simpa using hd⟩
  | t :: ts =>
    cases ho : l.operator? t.lexeme with
    | none =>
      rw [chain_stops ho] at h
      cases h
      exact ⟨[], rfl, by simpa using hd⟩
    | some f =>
      rw [chain_goes_on ho] at h
      obtain ⟨⟨b, r⟩, hb, hr⟩ := then_ok h
      have hlt := out_shorter hb
      obtain ⟨u, hu, hb⟩ := parseAt_sound l.tighter ts hb
      obtain ⟨v, hv, he⟩ := chain_sound l r (.joined (joins_iff.mpr ho) hd hb) hr
      exact ⟨t :: (u ++ v), by simp [hu, hv], by simpa using he⟩
  termination_by (ts.length, 0)

theorem suffixes_sound (ts : List Token) {a e : Expr} {w : List Lexeme} {rest : List Token}
    (hd : Derives (.expr .access a) w) (h : (suffixes a ts).out = .ok (e, rest)) :
    ∃ u, ts = u ++ rest ∧ Derives (.expr .access e) (w ++ words u) := by
  match ts with
  | [] =>
    rw [suffixes_nil] at h
    cases h
    exact ⟨[], rfl, by simpa using hd⟩
  | ⟨x, p⟩ :: ts =>
    by_cases hdot : x = .symbol .dot
    · rw [hdot] at h ⊢
      obtain ⟨t, n, r, hr, hn, h1⟩ := suffixes_dot_ok h
      obtain ⟨u, hu, he⟩ := suffixes_sound r (.member hd hn) h1
      exact ⟨⟨.symbol .dot, p⟩ :: t :: u, by simp [hr, hu], by simpa using he⟩
    · by_cases hb : x = .symbol .openBracket
      · rw [hb] at h ⊢
        rw [suffixes_index] at h
        obtain ⟨⟨k, r⟩, hk, h1⟩ := then_ok h
        obtain ⟨⟨⟨⟩, r'⟩, hc, h2⟩ := then_ok h1
        obtain ⟨q, hq⟩ := expect_ok hc
        have hlt := shorter_after (out_shorter hk) hq
        obtain ⟨u, hu, hk⟩ := parseAt_sound .disjunction ts hk
        obtain ⟨v, hv, he⟩ := suffixes_sound r' (.index hd hk) h2
        exact ⟨⟨.symbol .openBracket, p⟩ :: (u ++ ⟨.symbol .closeBracket, q⟩ :: v), by simp_all, by simpa using he⟩
      · rw [suffixes_stop a hdot hb] at h
        cases h
        exact ⟨[], rfl, by simpa using hd⟩
  termination_by (ts.length, 0)

theorem primary_sound (ts : List Token) {e : Expr} {rest : List Token}
    (h : (primary ts).out = .ok (e, rest)) : Holds (.expr .access e) ts rest := by
  match ts with
  | [] =>
    rw [primary_nil] at h
    cases h
  | ⟨.number n, p⟩ :: ts =>
    rw [primary_number] at h
    cases h
    exact ⟨[⟨.number n, p⟩], rfl, .number n⟩
  | ⟨.string s, p⟩ :: ts =>
    rw [primary_string] at h
    cases h
    exact ⟨[⟨.string s, p⟩], rfl, .string s⟩
  | ⟨.keyword k, p⟩ :: ts =>
    rw [primary_keyword] at h
    split at h
    · rename_i v hv
      cases h
      exact ⟨[⟨.keyword k, p⟩], rfl, .word hv⟩
    · cases h
  | ⟨.ident n, p⟩ :: ts =>
    cases ho : after? .openParen ts with
    | none =>
      rw [primary_name n p ho] at h
      cases h
      exact ⟨[⟨.ident n, p⟩], rfl, .name n⟩
    | some r =>
      rw [primary_call n p ho] at h
      obtain ⟨⟨es, r'⟩, hi, hr⟩ := then_ok h
      cases hr
      obtain ⟨q, hq⟩ := after?_eq_some ho
      have hlt := after?_length ho
      obtain ⟨u, q', hu, hi⟩ := items_sound .closeParen r hi
      exact ⟨⟨.ident n, p⟩ :: ⟨.symbol .openParen, q⟩ :: (u ++ [⟨.symbol .closeParen, q'⟩]), by simp [hq, hu],
        by simpa using Derives.call n hi⟩
  | ⟨.symbol s, p⟩ :: ts =>
    by_cases hp : s = .openParen
    · rw [hp, primary_group] at h
      obtain ⟨⟨a, r⟩, ha, h1⟩ := then_ok h
      obtain ⟨⟨⟨⟩, r'⟩, hc, h2⟩ := then_ok h1
      cases h2
      obtain ⟨q, hq⟩ := expect_ok hc
      obtain ⟨u, hu, ha⟩ := parseAt_sound .disjunction ts ha
      exact ⟨⟨.symbol .openParen, p⟩ :: (u ++ [⟨.symbol .closeParen, q⟩]), by simp_all,
        by simpa using Derives.group ha⟩
    by_cases hb : s = .openBracket
    · rw [hb, primary_list] at h
      obtain ⟨⟨es, r⟩, hi, h1⟩ := then_ok h
      cases h1
      obtain ⟨u, q, hu, hi⟩ := items_sound .closeBracket ts hi
      exact ⟨⟨.symbol .openBracket, p⟩ :: (u ++ [⟨.symbol .closeBracket, q⟩]), by simp [hb, hu],
        by simpa using Derives.list hi⟩
    by_cases hc : s = .openBrace
    · rw [hc, primary_object] at h
      obtain ⟨⟨ps, r⟩, hi, h1⟩ := then_ok h
      cases h1
      obtain ⟨u, q, hu, hi⟩ := pairs_sound ts hi
      exact ⟨⟨.symbol .openBrace, p⟩ :: (u ++ [⟨.symbol .closeBrace, q⟩]), by simp [hc, hu],
        by simpa using Derives.object hi⟩
    rw [primary_symbol (by cases s <;> first | rfl | contradiction)] at h
    cases h
  | ⟨.newline, p⟩ :: ts =>
    rw [primary_newline] at h
    cases h
  termination_by (ts.length, 1)

/-- The items before the closing sign. -/
theorem items_sound (close : Symbol) (ts : List Token) {es : List Expr} {rest : List Token}
    (h : (items close ts).out = .ok (es, rest)) :
    ∃ u p, ts = u ++ ⟨.symbol close, p⟩ :: rest ∧ Derives (.items es) (words u) := by
  cases hc : after? close ts with
  | some r =>
    rw [items_closed hc] at h
    cases h
    obtain ⟨p, hp⟩ := after?_eq_some hc
    exact ⟨[], p, hp, .noItems⟩
  | none =>
    rw [items_open hc] at h
    obtain ⟨⟨e, r⟩, he, h1⟩ := then_ok h
    have hlt := out_shorter he
    obtain ⟨u, hu, he⟩ := parseAt_sound .disjunction ts he
    simp only [itemsAfter] at h1
    cases hm : after? .comma r with
    | some r' =>
      simp only [hm] at h1
      obtain ⟨⟨es', r''⟩, hes, h2⟩ := then_ok h1
      cases h2
      obtain ⟨q, hq⟩ := after?_eq_some hm
      have hlt := shorter_after hlt hq
      obtain ⟨v, p, hv, hes⟩ := items_sound close r' hes
      exact ⟨u ++ ⟨.symbol .comma, q⟩ :: v, p, by simp [hu, hq, hv], by simpa using he.item hes⟩
    | none =>
      simp only [hm] at h1
      obtain ⟨⟨⟨⟩, r'⟩, hx, h2⟩ := then_ok h1
      cases h2
      obtain ⟨p, hp⟩ := expect_ok hx
      exact ⟨u, p, by simp_all, .lastItem he⟩
  termination_by (ts.length, 2 * Level.disjunction.looseness + 2)

theorem key_sound (ts : List Token) {e : Expr} {rest : List Token} (h : (key ts).out = .ok (e, rest)) :
    Holds (.key e) ts rest := by
  rcases key_ok h with ⟨n, p, hts, he⟩ | ⟨hn, h⟩
  · subst he
    exact ⟨[⟨.ident n, p⟩], hts, .bareKey n⟩
  · obtain ⟨u, hu, he⟩ := parseAt_sound .disjunction ts h
    obtain ⟨x, v, hx, -⟩ := he.begins
    refine ⟨u, hu, .exprKey (fun n hw => hn n ?_) he⟩
    rw [hu, words_append, hx] at *
    exact hw
  termination_by (ts.length, 2 * Level.disjunction.looseness + 2)

theorem pairs_sound (ts : List Token) {ps : List (Expr × Expr)} {rest : List Token}
    (h : (pairs ts).out = .ok (ps, rest)) :
    ∃ u p, ts = u ++ ⟨.symbol .closeBrace, p⟩ :: rest ∧ Derives (.pairs ps) (words u) := by
  cases hc : after? .closeBrace ts with
  | some r =>
    rw [pairs_closed hc] at h
    cases h
    obtain ⟨p, hp⟩ := after?_eq_some hc
    exact ⟨[], p, hp, .noPairs⟩
  | none =>
    rw [pairs_open hc] at h
    obtain ⟨⟨k, r⟩, hk, h1⟩ := then_ok h
    obtain ⟨⟨⟨⟩, r1⟩, hx, h2⟩ := then_ok h1
    obtain ⟨⟨e, r2⟩, he, h3⟩ := then_ok h2
    obtain ⟨q, hq⟩ := expect_ok hx
    have hlt := shorter_after (out_shorter hk) hq
    have hlt' := Nat.lt_trans (out_shorter he) hlt
    obtain ⟨u, hu, hk⟩ := key_sound ts hk
    obtain ⟨v, hv, he⟩ := parseAt_sound .disjunction r1 he
    simp only [pairsAfter] at h3
    cases hm : after? .comma r2 with
    | some r3 =>
      simp only [hm] at h3
      obtain ⟨⟨ps', r4⟩, hps, h4⟩ := then_ok h3
      cases h4
      obtain ⟨q', hq'⟩ := after?_eq_some hm
      have hlt := shorter_after hlt' hq'
      obtain ⟨w, p, hw, hps⟩ := pairs_sound r3 hps
      exact ⟨u ++ ⟨.symbol .colon, q⟩ :: (v ++ ⟨.symbol .comma, q'⟩ :: w), p, by simp_all,
        by simpa using hk.pair he hps⟩
    | none =>
      simp only [hm] at h3
      obtain ⟨⟨⟨⟩, r3⟩, hx, h4⟩ := then_ok h3
      cases h4
      obtain ⟨p, hp⟩ := expect_ok hx
      exact ⟨u ++ ⟨.symbol .colon, q⟩ :: v, p, by simp_all, by simpa using hk.lastPair he⟩
  termination_by (ts.length, 2 * Level.disjunction.looseness + 3)

end

/-! ## Completeness -/

/-- How the reader of a level goes on after an expression of it. -/
def resumed (l : Level) (e : Expr) (ts : List Token) : Reading Expr (ts.length + 1) :=
  if l = .access then suffixes e ts else chain l e ts

/-- No tighter level than that goes on with the next lexeme. -/
def Loose (n : Nat) (ts : List Token) : Prop := ∀ t ∈ ts.head?, n ≤ reach t.lexeme

theorem loose_cons {n : Nat} {t : Token} {ts : List Token} (h : n ≤ reach t.lexeme) : Loose n (t :: ts) := by
  intro t' ht
  cases ht
  exact h

theorem Loose.mono {m n : Nat} {ts : List Token} (h : Loose n ts) (hm : m ≤ n) : Loose m ts :=
  fun t ht => Nat.le_trans hm (h t ht)

theorem reach_dot : reach (.symbol .dot) = 1 := rfl

theorem reach_openBracket : reach (.symbol .openBracket) = 1 := rfl

/-- The reader of a level stops before a lexeme that only looser levels go on with. -/
theorem resumed_stops {l : Level} {ts : List Token} (h : Loose (l.looseness + 1) ts) (e : Expr) :
    (resumed l e ts).out = .ok (e, ts) := by
  unfold resumed
  have hpos := l.looseness_pos
  split
  · match ts with
    | [] => exact suffixes_nil e
    | t :: ts =>
      have ht := h t rfl
      refine suffixes_stop e (fun hx => ?_) (fun hx => ?_) ts
      · rw [hx, reach_dot] at ht; omega
      · rw [hx, reach_openBracket] at ht; omega
  · match ts with
    | [] => exact chain_nil l e
    | t :: ts => exact chain_stops (operator?_beyond (h t rfl)) e ts

theorem resumed_chain {l : Level} (hl : l ≠ .access) (e : Expr) (ts : List Token) :
    (resumed l e ts).out = (chain l e ts).out := by
  rw [resumed, if_neg hl]

theorem resumed_access (e : Expr) (ts : List Token) : (resumed .access e ts).out = (suffixes e ts).out := rfl

/-- A sign that closes a list of items or pairs. -/
inductive Closing : Symbol → Prop
  | paren : Closing .closeParen
  | bracket : Closing .closeBracket
  | brace : Closing .closeBrace

/-- What the readers do with the tokens of a phrase, whatever comes after them. -/
def Reads : Phrase → List Token → Prop
  | .expr l e, ts => ∀ rest, Loose l.looseness rest → (parseAt l (ts ++ rest)).out = (resumed l e rest).out
  | .items es, ts => ∀ s p rest, Closing s → (items s (ts ++ ⟨.symbol s, p⟩ :: rest)).out = .ok (es, rest)
  | .key e, ts =>
    ∀ p rest, (key (ts ++ ⟨.symbol .colon, p⟩ :: rest)).out = .ok (e, ⟨.symbol .colon, p⟩ :: rest)
  | .pairs ps, ts => ∀ p rest, (pairs (ts ++ ⟨.symbol .closeBrace, p⟩ :: rest)).out = .ok (ps, rest)

theorem expect_self (s : Symbol) (p : Position) (ts : List Token) :
    (expect s (⟨.symbol s, p⟩ :: ts)).out = .ok ((), ts) := by
  rw [expect_out, after?_self]

theorem after?_other {s : Symbol} {t : Token} (h : t.lexeme ≠ .symbol s) (ts : List Token) :
    after? s (t :: ts) = none := by
  obtain ⟨x, p⟩ := t
  cases x with
  | symbol s' => exact if_neg fun hs => h (by rw [hs])
  | _ => rfl

theorem Closing.reach {s : Symbol} (h : Closing s) : reach (.symbol s) = 9 := by cases h <;> rfl

theorem Closing.entry {s : Symbol} (h : Closing s) : entry (.symbol s) = 9 := by cases h <;> rfl

/-- A whole expression is read up to a lexeme that goes on with no expression. -/
theorem Reads.whole {l : Level} {e : Expr} {ts rest : List Token} (h : Reads (.expr l e) ts)
    (hr : Loose (l.looseness + 1) rest) : (parseAt l (ts ++ rest)).out = .ok (e, rest) := by
  rw [h rest (hr.mono (Nat.le_succ _)), resumed_stops hr]

theorem Reads.upTo {e : Expr} {ts : List Token} (h : Reads (.expr .disjunction e) ts) {t : Token}
    (ht : reach t.lexeme = 9) (rest : List Token) :
    (parseAt .disjunction (ts ++ t :: rest)).out = .ok (e, t :: rest) :=
  h.whole (loose_cons (Nat.le_of_eq ht.symm))

theorem parseAt_access (ts : List Token) :
    (parseAt .access ts).out = (primary ts).out >>= fun r => (suffixes r.1 r.2).out := by
  match ts with
  | [] => rw [parseAt_nil, parseBelow_access]
  | t :: ts => rw [parseAt_unsigned (by rfl), parseBelow_access]

/-- A value is read as its reader reads it, up to its properties and indexes. -/
theorem reads_value {e : Expr} {ts : List Token}
    (h : ∀ rest, Loose 1 rest → (primary (ts ++ rest)).out = .ok (e, rest)) : Reads (.expr .access e) ts := by
  intro rest hr
  rw [parseAt_access, h rest hr, ok_then, resumed_access]

theorem Joins.chain {l : Level} {x : Lexeme} {f : Expr → Expr → Expr} (h : Joins l x f) : l ≠ .access := by
  cases h <;> exact Level.noConfusion

theorem Signs.chain {l : Level} {x : Lexeme} {f : Expr → Expr} (h : Signs l x f) : l ≠ .access := by
  cases h <;> exact Level.noConfusion

/-- After an operand, a level of signs has nothing to go on with. -/
theorem Signs.resumed {l : Level} {x : Lexeme} {f : Expr → Expr} (h : Signs l x f) (e : Expr) (ts : List Token) :
    (resumed l e ts).out = .ok (e, ts) := by
  rw [resumed_chain h.chain]
  match ts with
  | [] => exact chain_nil l e
  | t :: ts => exact chain_stops (by cases h <;> rfl) e ts

/-- An expression does not begin with a sign that closes. -/
theorem open_phrase {s : Symbol} (hs : Closing s) {e : Expr} {ts : List Token}
    (h : Derives (.expr .disjunction e) (words ts)) (rest : List Token) : after? s (ts ++ rest) = none := by
  obtain ⟨x, v, hw, hx⟩ := h.begins
  obtain ⟨p, tv, rfl, -⟩ := words_eq_cons hw
  refine after?_other (fun hxs => ?_) _
  have hx : entry x ≤ 8 := hx
  have hs := hs.entry
  have hxs : x = .symbol s := hxs
  rw [hxs] at hx
  omega

theorem open_key {k : Expr} {ts : List Token} (h : Derives (.key k) (words ts)) (rest : List Token) :
    after? .closeBrace (ts ++ rest) = none := by
  generalize hw : words ts = w at h
  cases h with
  | bareKey n =>
    obtain ⟨p, rfl⟩ := words_eq_single hw
    rfl
  | exprKey _ h => exact open_phrase .brace (hw ▸ h) rest

/-- What is derived is read. -/
theorem Derives.reads {p : Phrase} {w : List Lexeme} (h : Derives p w) : ∀ ts, words ts = w → Reads p ts := by
  induction h with
  | @tighter l e w hl hd ih =>
    intro ts hts rest hr
    obtain ⟨x, v, hw, hx⟩ := hd.begins
    obtain ⟨p, tv, rfl, -⟩ := words_eq_cons (hts.trans hw)
    have hsucc := Level.looseness_succ hl
    have hsign : l.sign? x = none := sign?_before (by omega)
    have hread := (ih _ hts).whole (hr.mono (by omega))
    rw [List.cons_append] at hread ⊢
    rw [parseAt_unsigned hsign, parseBelow_chain hl, hread, ok_then, resumed_chain hl]
  | @joined l x f a b u v hj _ _ ihu ihv =>
    intro ts hts rest hr
    obtain ⟨tu, txv, rfl, hu, hxv⟩ := words_eq_append hts
    obtain ⟨p, tv, rfl, hv⟩ := words_eq_cons hxv
    have hl := hj.chain
    have hsucc := Level.looseness_succ hl
    have hleft := ihu tu hu (⟨x, p⟩ :: (tv ++ rest)) (loose_cons (Nat.le_of_eq (joins_reach hj).symm))
    have hright := (ihv tv hv).whole (hr.mono (by omega))
    rw [List.append_assoc, List.cons_append, hleft, resumed_chain hl, chain_goes_on (joins_iff.mp hj), hright,
      ok_then, resumed_chain hl]
  | @signed l x f e w hs _ ih =>
    intro ts hts rest hr
    obtain ⟨p, tw, rfl, hw⟩ := words_eq_cons hts
    rw [List.cons_append, parseAt_signed (signs_iff.mp hs), ih tw hw rest hr, hs.resumed, hs.resumed, ok_then]
  | @member e w x n _ hn ih =>
    intro ts hts rest hr
    obtain ⟨tw, tdx, rfl, hw, hdx⟩ := words_eq_append hts
    obtain ⟨p, tx, rfl, hx⟩ := words_eq_cons hdx
    obtain ⟨q, rfl⟩ := words_eq_single hx
    rw [List.append_assoc, List.cons_append, ih tw hw _ (loose_cons (t := ⟨.symbol .dot, p⟩) (Nat.le_refl 1)),
      resumed_access, List.cons_append, suffixes_named (names_iff.mp hn), List.nil_append, resumed_access]
  | @index e k u v _ _ ihu ihv =>
    intro ts hts rest hr
    obtain ⟨tu, tov, rfl, hu, hov⟩ := words_eq_append hts
    obtain ⟨p, tvc, rfl, hvc⟩ := words_eq_cons hov
    obtain ⟨tv, q, rfl, hv⟩ := words_eq_snoc hvc
    have hkey := (ihv tv hv).upTo (t := ⟨.symbol .closeBracket, q⟩) rfl rest
    have hobj := ihu tu hu (⟨.symbol .openBracket, p⟩ :: (tv ++ ⟨.symbol .closeBracket, q⟩ :: rest))
      (loose_cons (Nat.le_refl 1))
    rw [List.append_assoc, List.cons_append, List.append_assoc, List.cons_append, List.nil_append, hobj,
      resumed_access, suffixes_index, hkey, ok_then, expect_self, ok_then, resumed_access]
  | number n =>
    intro ts hts
    obtain ⟨p, rfl⟩ := words_eq_single hts
    exact reads_value fun rest _ => primary_number n p rest
  | string s =>
    intro ts hts
    obtain ⟨p, rfl⟩ := words_eq_single hts
    exact reads_value fun rest _ => primary_string s p rest
  | @word k v hk =>
    intro ts hts
    obtain ⟨p, rfl⟩ := words_eq_single hts
    refine reads_value fun rest _ => ?_
    rw [List.cons_append, primary_keyword, hk]
    rfl
  | name n =>
    intro ts hts
    obtain ⟨p, rfl⟩ := words_eq_single hts
    refine reads_value fun rest hr => primary_name n p ?_
    match rest with
    | [] => rfl
    | t :: rest =>
      refine after?_other (fun hx => ?_) _
      have := hr t rfl
      rw [hx] at this
      exact absurd this (by decide)
  | @call es w n _ ih =>
    intro ts hts
    obtain ⟨p, tow, rfl, how⟩ := words_eq_cons hts
    obtain ⟨q, twc, rfl, hwc⟩ := words_eq_cons how
    obtain ⟨tw, q', rfl, hw⟩ := words_eq_snoc hwc
    refine reads_value fun rest _ => ?_
    have hitems := ih tw hw .closeParen q' rest .paren
    rw [List.cons_append, List.cons_append, primary_call n p (after?_self _ _ _), List.append_assoc,
      List.cons_append, List.nil_append, hitems, ok_then]
  | @group e w _ ih =>
    intro ts hts
    obtain ⟨p, twc, rfl, hwc⟩ := words_eq_cons hts
    obtain ⟨tw, q, rfl, hw⟩ := words_eq_snoc hwc
    refine reads_value fun rest _ => ?_
    have hinner := (ih tw hw).upTo (t := ⟨.symbol .closeParen, q⟩) rfl rest
    rw [List.cons_append, primary_group, List.append_assoc, List.cons_append, List.nil_append, hinner, ok_then,
      expect_self, ok_then]
  | @list es w _ ih =>
    intro ts hts
    obtain ⟨p, twc, rfl, hwc⟩ := words_eq_cons hts
    obtain ⟨tw, q, rfl, hw⟩ := words_eq_snoc hwc
    refine reads_value fun rest _ => ?_
    have hitems := ih tw hw .closeBracket q rest .bracket
    rw [List.cons_append, primary_list, List.append_assoc, List.cons_append, List.nil_append, hitems, ok_then]
  | @object ps w _ ih =>
    intro ts hts
    obtain ⟨p, twc, rfl, hwc⟩ := words_eq_cons hts
    obtain ⟨tw, q, rfl, hw⟩ := words_eq_snoc hwc
    refine reads_value fun rest _ => ?_
    have hpairs := ih tw hw q rest
    rw [List.cons_append, primary_object, List.append_assoc, List.cons_append, List.nil_append, hpairs, ok_then]
  | noItems =>
    intro ts hts s p rest _
    obtain rfl := words_eq_nil hts
    exact items_closed (after?_self s p rest)
  | @lastItem e w hd ih =>
    intro ts hts s p rest hs
    subst hts
    have hread := (ih ts rfl).upTo (t := ⟨.symbol s, p⟩) hs.reach rest
    have hcomma : after? .comma (⟨.symbol s, p⟩ :: rest) = none := after?_other (by cases hs <;> simp) rest
    rw [items_open (open_phrase hs hd _), hread, ok_then, itemsAfter, hcomma, expect_self]
    rfl
  | @item e es u v hd _ ihu ihv =>
    intro ts hts s p rest hs
    obtain ⟨tu, tcv, rfl, rfl, hcv⟩ := words_eq_append hts
    obtain ⟨q, tv, rfl, hv⟩ := words_eq_cons hcv
    have hread := (ihu tu rfl).upTo (t := ⟨.symbol .comma, q⟩) rfl (tv ++ ⟨.symbol s, p⟩ :: rest)
    have hmore := ihv tv hv s p rest hs
    rw [List.append_assoc, List.cons_append, items_open (open_phrase hs hd _), hread, ok_then, itemsAfter,
      after?_self]
    simp only [hmore, ok_then]
  | bareKey n =>
    intro ts hts p rest
    obtain ⟨q, rfl⟩ := words_eq_single hts
    exact key_bare n q _
  | @exprKey e w hn hd ih =>
    intro ts hts p rest
    subst hts
    have hread := (ih ts rfl).upTo (t := ⟨.symbol .colon, p⟩) rfl rest
    rw [key_expr, hread]
    obtain ⟨x, v, hw, -⟩ := hd.begins
    obtain ⟨q, tv, rfl, -⟩ := words_eq_cons hw
    intro t ht n hx
    cases ht
    exact hn n (by rw [words_cons, hx]; rfl)
  | noPairs =>
    intro ts hts p rest
    obtain rfl := words_eq_nil hts
    exact pairs_closed (after?_self _ p rest)
  | @lastPair k e u v hk _ ihk ihe =>
    intro ts hts p rest
    obtain ⟨tu, tcv, rfl, rfl, hcv⟩ := words_eq_append hts
    obtain ⟨q, tv, rfl, hv⟩ := words_eq_cons hcv
    have hkey := ihk tu rfl q (tv ++ ⟨.symbol .closeBrace, p⟩ :: rest)
    have hvalue := (ihe tv hv).upTo (t := ⟨.symbol .closeBrace, p⟩) rfl rest
    have hcomma : after? .comma (⟨.symbol .closeBrace, p⟩ :: rest) = none := after?_other (by simp) rest
    rw [List.append_assoc, List.cons_append, pairs_open (open_key hk _), hkey, ok_then, expect_self, ok_then,
      hvalue, ok_then, pairsAfter, hcomma, expect_self]
    rfl
  | @pair k e ps u v w hk _ _ ihk ihe ihp =>
    intro ts hts p rest
    obtain ⟨tu, tcvw, rfl, rfl, hcvw⟩ := words_eq_append hts
    obtain ⟨q, tvcw, rfl, hvcw⟩ := words_eq_cons hcvw
    obtain ⟨tv, tcw, rfl, hv, hcw⟩ := words_eq_append hvcw
    obtain ⟨q', tw, rfl, hw⟩ := words_eq_cons hcw
    have hkey := ihk tu rfl q (tv ++ ⟨.symbol .comma, q'⟩ :: (tw ++ ⟨.symbol .closeBrace, p⟩ :: rest))
    have hvalue := (ihe tv hv).upTo (t := ⟨.symbol .comma, q'⟩) rfl (tw ++ ⟨.symbol .closeBrace, p⟩ :: rest)
    have hmore := ihp tw hw p rest
    rw [List.append_assoc, List.cons_append, List.append_assoc, List.cons_append, pairs_open (open_key hk _), hkey,
      ok_then, expect_self, ok_then, hvalue, ok_then, pairsAfter, after?_self]
    simp only [hmore, ok_then]

end StepFlow.Script
