/-
  StepFlow.Proofs.Script.Lookahead — a reader looks at one token after those it takes.

  Two lists of tokens agree up to a token if they have it in the same place and are the same
  before it (`Until`); what comes after it is `q` in one and `q'` in the other. As long as a
  reader of the first has not gone past that token, it has done the same on both (`Same`): it
  gives the same value, or the same error, and what it leaves agrees up to the token still.

  Proved: `parseAt_same` and its fellows, by the recursion of the readers. So a script or an
  expression that is refused at a token is refused whatever comes after that token
  (`statements_goes_on_failing`, `expression_goes_on_failing`); and since what comes before it
  can be completed, a text is refused at the first token with which it can no longer become
  right (`refused_where_it_goes_wrong`).
-/

import Mathlib
import StepFlow.Proofs.Script.Viability

namespace StepFlow.Script

variable {α β : Type} {q q' ts us : List Token}

/-! ## What a reader leaves -/

/-- The tokens after what was read, or those at which reading failed. -/
def left : Except Unexpected (α × List Token) → List Token
  | .ok r => r.2
  | .error x => x.at

theorem left_then {o : Except Unexpected (α × List Token)} {f : α × List Token → Except Unexpected (β × List Token)}
    {n : Nat} (ho : (left o).length ≤ n) (hf : ∀ a r, o = .ok (a, r) → (left (f (a, r))).length ≤ r.length) :
    (left (o >>= f)).length ≤ n := by
  match o with
  | .error x => exact ho
  | .ok (a, r) => exact Nat.le_trans (hf a r rfl) ho

theorem left_stuck {n : Nat} {r : Reading α n} {P : List Token → Prop} (hn : n ≤ ts.length + 1)
    (h : ∀ x, r.out = .error x → ∃ u, ts = u ++ x.at ∧ P u) : (left r.out).length ≤ ts.length := by
  cases ho : r.out with
  | error x =>
    obtain ⟨u, hu, -⟩ := h x ho
    simp [hu, left]
  | ok a => exact Nat.le_of_lt_succ (Nat.lt_of_lt_of_le (out_shorter ho) hn)

theorem parseAt_left (l : Level) (ts : List Token) : (left (parseAt l ts).out).length ≤ ts.length :=
  left_stuck (Nat.le_succ _) fun _ => parseAt_stuck l ts

theorem items_left (close : Symbol) (ts : List Token) : (left (items close ts).out).length ≤ ts.length :=
  left_stuck (Nat.le_succ _) fun _ => items_stuck close ts

theorem pairs_left (ts : List Token) : (left (pairs ts).out).length ≤ ts.length :=
  left_stuck (Nat.le_succ _) fun _ => pairs_stuck ts

theorem chain_left {l : Level} {a : Expr} {w : List Lexeme} (hd : Derives (.expr l a) w) (ts : List Token) :
    (left (chain l a ts).out).length ≤ ts.length :=
  left_stuck (Nat.le_refl _) fun _ => chain_stuck l ts hd

theorem suffixes_left {a : Expr} {w : List Lexeme} (hd : Derives (.expr .access a) w) (ts : List Token) :
    (left (suffixes a ts).out).length ≤ ts.length :=
  left_stuck (Nat.le_refl _) fun _ => suffixes_stuck ts hd

theorem suffixes_dot_left {a : Expr} {w : List Lexeme} (hd : Derives (.expr .access a) w) (p : Position)
    (ts : List Token) : (left (suffixes a (⟨.symbol .dot, p⟩ :: ts)).out).length ≤ ts.length := by
  cases h : (suffixes a (⟨.symbol .dot, p⟩ :: ts)).out with
  | ok r =>
    obtain ⟨t, n, r', rfl, -, h1⟩ := suffixes_dot_ok h
    exact Nat.le_of_lt (out_shorter h1)
  | error x =>
    rcases suffixes_dot_error h with hat | ⟨t, n, r, rfl, hn, h1⟩
    · exact Nat.le_of_eq (congrArg List.length hat)
    · obtain ⟨u, hu, -⟩ := suffixes_stuck r (.member hd hn) h1
      have hr : r.length = u.length + x.at.length := by rw [hu, List.length_append]
      exact Nat.le_succ_of_le (hr ▸ Nat.le_add_left _ _)

theorem expect_left (s : Symbol) (ts : List Token) : (left (expect s ts).out).length ≤ ts.length :=
  left_stuck (P := fun _ => True) (Nat.le_succ _) fun _ h => ⟨[], (expect_error h).symm, trivial⟩

theorem itemsAfter_left (close : Symbol) (e : Expr) (ts : List Token) :
    (left (itemsAfter close e ts)).length ≤ ts.length := by
  unfold itemsAfter
  split
  · rename_i r hr
    have hlt := after?_length hr
    exact left_then (Nat.le_trans (items_left close r) (Nat.le_of_lt hlt)) fun _ _ _ => Nat.le_refl _
  · exact left_then (expect_left close ts) fun _ _ _ => Nat.le_refl _

theorem pairsAfter_left (p : Expr × Expr) (ts : List Token) : (left (pairsAfter p ts)).length ≤ ts.length := by
  unfold pairsAfter
  split
  · rename_i r hr
    have hlt := after?_length hr
    exact left_then (Nat.le_trans (pairs_left r) (Nat.le_of_lt hlt)) fun _ _ _ => Nat.le_refl _
  · exact left_then (expect_left .closeBrace ts) fun _ _ _ => Nat.le_refl _

/-! ## Tokens that agree up to one -/

inductive Until (q q' : List Token) : List Token → List Token → Prop
  | here (t : Token) : Until q q' (t :: q) (t :: q')
  | later (t : Token) {ts us : List Token} : Until q q' ts us → Until q q' (t :: ts) (t :: us)

theorem until_append (u : List Token) (t : Token) (q q' : List Token) : Until q q' (u ++ t :: q) (u ++ t :: q') := by
  induction u with
  | nil => exact .here t
  | cons t' u ih => exact .later t' ih

/-- The first list has come past the token, or the lists agree up to it. -/
def Beyond (q q' ts us : List Token) : Prop := ts.length ≤ q.length ∨ Until q q' ts us

theorem Until.cons {t : Token} (h : Until q q' (t :: ts) us) : ∃ us', us = t :: us' ∧ Beyond q q' ts us' := by
  cases h with
  | here => exact ⟨q', rfl, Or.inl (Nat.le_refl _)⟩
  | later _ h => exact ⟨_, rfl, Or.inr h⟩

/-- The token after which a list is asked for is the same in both. -/
theorem Until.after (s : Symbol) (h : Until q q' ts us) :
    (after? s ts = none ∧ after? s us = none) ∨
      ∃ r r', after? s ts = some r ∧ after? s us = some r' ∧ Beyond q q' r r' := by
  match ts with
  | [] => cases h
  | ⟨x, p⟩ :: ts =>
    obtain ⟨us, rfl, hb⟩ := h.cons
    by_cases hx : x = .symbol s
    · subst hx
      exact Or.inr ⟨ts, us, after?_self s p ts, after?_self s p us, hb⟩
    · exact Or.inl ⟨after?_other hx ts, after?_other hx us⟩

/-- The lexeme of which a property's name is asked is the same in both. -/
theorem Until.property (h : Until q q' ts us) :
    ((∀ t ∈ ts.head?, propertyName? t.lexeme = none) ∧ ∀ t ∈ us.head?, propertyName? t.lexeme = none) ∨
      ∃ t n r r', ts = t :: r ∧ us = t :: r' ∧ propertyName? t.lexeme = some n ∧ Beyond q q' r r' := by
  match ts with
  | [] => cases h
  | t :: ts =>
    obtain ⟨us, rfl, hb⟩ := h.cons
    cases hn : propertyName? t.lexeme with
    | none => exact Or.inl ⟨by simpa using hn, by simpa using hn⟩
    | some n => exact Or.inr ⟨t, n, ts, us, rfl, rfl, hn, hb⟩

/-! ## Readings that go the same way -/

/-- The reading with other tokens left. -/
def relay : Except Unexpected (α × List Token) → List Token → Except Unexpected (α × List Token)
  | .ok r, ts => .ok (r.1, ts)
  | .error x, ts => .error ⟨x.expectation, ts⟩

/-- Unless the first reading has come past the token, the second gives what it gives. -/
def Same (q q' : List Token) (o o' : Except Unexpected (α × List Token)) : Prop :=
  q.length < (left o).length → ∃ r', Until q q' (left o) r' ∧ o' = relay o r'

theorem Same.past {o o' : Except Unexpected (α × List Token)} (h : (left o).length ≤ q.length) : Same q q' o o' :=
  fun hl => absurd hl (Nat.not_lt.mpr h)

theorem Same.ok {r r' : List Token} (a : α) (h : Beyond q q' r r') : Same q q' (.ok (a, r)) (.ok (a, r')) := by
  rcases h with h | h
  · exact .past h
  · exact fun _ => ⟨r', h, rfl⟩

theorem Same.error {r r' : List Token} (x : Expectation) (h : Until q q' r r') :
    Same q q' (.error ⟨x, r⟩ : Except Unexpected (α × List Token)) (.error ⟨x, r'⟩) := fun _ => ⟨r', h, rfl⟩

theorem Same.then {o o' : Except Unexpected (α × List Token)}
    {f f' : α × List Token → Except Unexpected (β × List Token)} (h : Same q q' o o')
    (hf : ∀ a r, o = .ok (a, r) → (left (f (a, r))).length ≤ r.length ∧
      ∀ r', Until q q' r r' → Same q q' (f (a, r)) (f' (a, r'))) : Same q q' (o >>= f) (o' >>= f') := by
  match o with
  | .error x =>
    intro hl
    obtain ⟨r', hr, rfl⟩ := h hl
    exact ⟨r', hr, rfl⟩
  | .ok (a, r) =>
    obtain ⟨hw, hs⟩ := hf a r rfl
    by_cases hl : q.length < r.length
    · obtain ⟨r', hr, rfl⟩ := h hl
      exact hs r' hr
    · exact .past (Nat.le_trans hw (Nat.not_lt.mp hl))

theorem Same.map {o o' : Except Unexpected (α × List Token)} (h : Same q q' o o') (g : α → β) :
    Same q q' (o >>= fun r => .ok (g r.1, r.2)) (o' >>= fun r => .ok (g r.1, r.2)) :=
  h.then fun a _ _ => ⟨Nat.le_refl _, fun _ hr => .ok (g a) (Or.inr hr)⟩

/-- What reads the tokens after one that was taken goes the same way if it does before the token. -/
theorem Beyond.same {o o' : Except Unexpected (α × List Token)} (h : Beyond q q' ts us)
    (hw : (left o).length ≤ ts.length) (hf : Until q q' ts us → Same q q' o o') : Same q q' o o' := by
  rcases h with h | h
  · exact .past (Nat.le_trans hw h)
  · exact hf h

theorem expect_same (s : Symbol) (h : Until q q' ts us) : Same q q' (expect s ts).out (expect s us).out := by
  rw [expect_out, expect_out]
  rcases h.after s with ⟨hn, hn'⟩ | ⟨r, r', hr, hr', hb⟩
  · rw [hn, hn']
    exact .error _ h
  · rw [hr, hr']
    exact .ok () hb

mutual

theorem parseAt_same (l : Level) (ts : List Token) {us : List Token} (h : Until q q' ts us) :
    Same q q' (parseAt l ts).out (parseAt l us).out := by
  match ts with
  | [] => cases h
  | t :: ts =>
    obtain ⟨us, rfl, hb⟩ := h.cons
    cases hs : l.sign? t.lexeme with
    | none =>
      rw [parseAt_unsigned hs, parseAt_unsigned hs]
      exact parseBelow_same l (t :: ts) h
    | some f =>
      rw [parseAt_signed hs, parseAt_signed hs]
      exact (hb.same (parseAt_left l ts) (parseAt_same l ts)).map f
  termination_by (ts.length, 2 * l.looseness + 1)

theorem parseBelow_same (l : Level) (ts : List Token) {us : List Token} (h : Until q q' ts us) :
    Same q q' (parseBelow l ts).out (parseBelow l us).out := by
  have hpos := l.looseness_pos
  by_cases hl : l = .access
  · subst hl
    rw [parseBelow_access, parseBelow_access]
    refine (primary_same ts h).then fun a r ha => ?_
    have hlt := out_shorter ha
    obtain ⟨u, -, hd⟩ := primary_sound ts ha
    exact ⟨suffixes_left hd r, fun r' hr => suffixes_same r hd hr⟩
  · have := Level.looseness_tighter hl
    rw [parseBelow_chain hl, parseBelow_chain hl]
    refine (parseAt_same l.tighter ts h).then fun a r ha => ?_
    have hlt := out_shorter ha
    obtain ⟨u, -, hd⟩ := parseAt_sound l.tighter ts ha
    exact ⟨chain_left (.tighter hl hd) r, fun r' hr => chain_same l r (.tighter hl hd) hr⟩
  termination_by (ts.length, 2 * l.looseness)

theorem chain_same (l : Level) (ts : List Token) {us : List Token} {a : Expr} {w : List Lexeme}
    (hd : Derives (.expr l a) w) (h : Until q q' ts us) : Same q q' (chain l a ts).out (chain l a us).out := by
  match ts with
  | [] => cases h
  | t :: ts =>
    obtain ⟨us, rfl, hb⟩ := h.cons
    cases ho : l.operator? t.lexeme with
    | none =>
      rw [chain_stops ho, chain_stops ho]
      exact .ok a (Or.inr h)
    | some f =>
      have hj := joins_iff.mpr ho
      rw [chain_goes_on ho, chain_goes_on ho]
      refine (hb.same (parseAt_left l.tighter ts) (parseAt_same l.tighter ts)).then fun b r hr => ?_
      have hlt := out_shorter hr
      obtain ⟨u, -, hb⟩ := parseAt_sound l.tighter ts hr
      exact ⟨chain_left (.joined hj hd hb) r, fun r' hr' => chain_same l r (.joined hj hd hb) hr'⟩
  termination_by (ts.length, 0)

theorem suffixes_same (ts : List Token) {us : List Token} {a : Expr} {w : List Lexeme}
    (hd : Derives (.expr .access a) w) (h : Until q q' ts us) :
    Same q q' (suffixes a ts).out (suffixes a us).out := by
  match ts with
  | [] => cases h
  | ⟨x, p⟩ :: ts =>
    obtain ⟨us, rfl, hb⟩ := h.cons
    by_cases hdot : x = .symbol .dot
    · subst hdot
      rcases hb with hp | hb
      · exact .past (Nat.le_trans (suffixes_dot_left hd p ts) hp)
      · rcases hb.property with ⟨hn, hn'⟩ | ⟨t, n, r, r', hr, rfl, hn, hb'⟩
        · rw [suffixes_nameless hn, suffixes_nameless hn']
          exact .error _ hb
        · have hd := hd.member (names_iff.mpr hn)
          rw [hr, suffixes_named hn, suffixes_named hn]
          exact hb'.same (suffixes_left hd r) (suffixes_same r hd)
    · by_cases hbr : x = .symbol .openBracket
      · subst hbr
        rw [suffixes_index, suffixes_index]
        refine (hb.same (parseAt_left .disjunction ts) (parseAt_same .disjunction ts)).then fun k r hk => ?_
        obtain ⟨u, -, hdk⟩ := parseAt_sound .disjunction ts hk
        have hs : ∀ r', (left (suffixes (.index a k) r').out).length ≤ r'.length := suffixes_left (hd.index hdk)
        refine ⟨left_then (expect_left _ r) fun _ r' _ => hs r', fun r' hr => ?_⟩
        refine (expect_same _ hr).then fun _ r2 hc => ?_
        have hlt := Nat.lt_trans (out_shorter hc) (out_shorter hk)
        exact ⟨hs r2, fun r2' hr2 => suffixes_same r2 (hd.index hdk) hr2⟩
      · rw [suffixes_stop a hdot hbr, suffixes_stop a hdot hbr]
        exact .ok a (Or.inr h)
  termination_by (ts.length, 0)

theorem primary_same (ts : List Token) {us : List Token} (h : Until q q' ts us) :
    Same q q' (primary ts).out (primary us).out := by
  match ts with
  | [] => cases h
  | ⟨.number n, p⟩ :: ts =>
    obtain ⟨us, rfl, hb⟩ := h.cons
    rw [primary_number, primary_number]
    exact .ok _ hb
  | ⟨.string s, p⟩ :: ts =>
    obtain ⟨us, rfl, hb⟩ := h.cons
    rw [primary_string, primary_string]
    exact .ok _ hb
  | ⟨.keyword k, p⟩ :: ts =>
    obtain ⟨us, rfl, hb⟩ := h.cons
    rw [primary_keyword, primary_keyword]
    split
    · exact .ok _ hb
    · exact .error _ h
  | ⟨.ident n, p⟩ :: ts =>
    obtain ⟨us, rfl, hb⟩ := h.cons
    cases ho : after? .openParen ts with
    | none =>
      rw [primary_name n p ho]
      rcases hb with hp | hb
      · exact .past hp
      · rcases hb.after .openParen with ⟨-, hn⟩ | ⟨r, r', hr, -, -⟩
        · rw [primary_name n p hn]
          exact .ok _ (Or.inr hb)
        · rw [ho] at hr
          cases hr
    | some r =>
      have hlt := after?_length ho
      have hi : (left ((items .closeParen r).out >>= fun m => .ok (Expr.call n m.1, m.2))).length ≤ r.length :=
        left_then (items_left _ r) fun _ _ _ => Nat.le_refl _
      rw [primary_call n p ho]
      rcases hb with hp | hb
      · exact .past (Nat.le_trans hi (Nat.le_trans (Nat.le_of_lt hlt) hp))
      · rcases hb.after .openParen with ⟨hn, -⟩ | ⟨r1, r', hr, hr', hb'⟩
        · rw [ho] at hn
          cases hn
        · obtain rfl : r = r1 := Option.some.inj (ho.symm.trans hr)
          rw [primary_call n p hr']
          exact (hb'.same (items_left _ r) (items_same .closeParen r)).map _
  | ⟨.symbol s, p⟩ :: ts =>
    obtain ⟨us, rfl, hb⟩ := h.cons
    by_cases hp : s = .openParen
    · subst hp
      rw [primary_group, primary_group]
      refine (hb.same (parseAt_left .disjunction ts) (parseAt_same .disjunction ts)).then fun a r _ => ?_
      refine ⟨left_then (expect_left _ r) fun _ _ _ => Nat.le_refl _, fun r' hr => ?_⟩
      exact (expect_same _ hr).map fun _ => a
    by_cases hbr : s = .openBracket
    · subst hbr
      rw [primary_list, primary_list]
      exact (hb.same (items_left _ ts) (items_same .closeBracket ts)).map _
    by_cases hc : s = .openBrace
    · subst hc
      rw [primary_object, primary_object]
      exact (hb.same (pairs_left ts) (pairs_same ts)).map _
    have ho : s.opens = false := by cases s <;> first | rfl | contradiction
    rw [primary_symbol ho, primary_symbol ho]
    exact .error _ h
  | ⟨.newline, p⟩ :: ts =>
    obtain ⟨us, rfl, -⟩ := h.cons
    rw [primary_newline, primary_newline]
    exact .error _ h
  termination_by (ts.length, 1)

theorem items_same (close : Symbol) (ts : List Token) {us : List Token} (h : Until q q' ts us) :
    Same q q' (items close ts).out (items close us).out := by
  rcases h.after close with ⟨hn, hn'⟩ | ⟨r, r', hr, hr', hb⟩
  · rw [items_open hn, items_open hn']
    refine (parseAt_same .disjunction ts h).then fun e r he => ?_
    have hlt := out_shorter he
    refine ⟨itemsAfter_left close e r, fun r' hr => ?_⟩
    simp only [itemsAfter]
    rcases hr.after .comma with ⟨hm, hm'⟩ | ⟨r1, r1', hm, hm', hb⟩
    · rw [hm, hm']
      exact (expect_same close hr).map fun _ => [e]
    · rw [hm, hm']
      have hlt' := after?_length hm
      exact (hb.same (items_left close r1) (items_same close r1)).map _
  · rw [items_closed hr, items_closed hr']
    exact .ok _ hb
  termination_by (ts.length, 2 * Level.disjunction.looseness + 2)

theorem key_same (ts : List Token) {us : List Token} (h : Until q q' ts us) :
    Same q q' (key ts).out (key us).out := by
  match ts with
  | [] => cases h
  | ⟨x, p⟩ :: ts =>
    obtain ⟨us, rfl, hb⟩ := h.cons
    cases x with
    | ident n =>
      rw [key_bare, key_bare]
      exact .ok _ hb
    | _ =>
      rw [key_expr (by simp), key_expr (by simp)]
      exact parseAt_same .disjunction _ h
  termination_by (ts.length, 2 * Level.disjunction.looseness + 2)

theorem pairs_same (ts : List Token) {us : List Token} (h : Until q q' ts us) :
    Same q q' (pairs ts).out (pairs us).out := by
  rcases h.after .closeBrace with ⟨hn, hn'⟩ | ⟨r, r', hr, hr', hb⟩
  · rw [pairs_open hn, pairs_open hn']
    refine (key_same ts h).then fun k r hk => ?_
    refine ⟨left_then (expect_left _ r) fun _ r1 _ => left_then (parseAt_left _ r1) fun _ r2 _ =>
      pairsAfter_left _ r2, fun r' hr => ?_⟩
    refine (expect_same _ hr).then fun _ r1 hc => ?_
    have hlt := Nat.lt_trans (out_shorter hc) (out_shorter hk)
    refine ⟨left_then (parseAt_left _ r1) fun _ r2 _ => pairsAfter_left _ r2, fun r1' hr1 => ?_⟩
    refine (parseAt_same .disjunction r1 hr1).then fun v r2 hv => ?_
    have hlt := Nat.lt_trans (out_shorter hv) hlt
    refine ⟨pairsAfter_left _ r2, fun r2' hr2 => ?_⟩
    simp only [pairsAfter]
    rcases hr2.after .comma with ⟨hm, hm'⟩ | ⟨r3, r3', hm, hm', hb⟩
    · rw [hm, hm']
      exact (expect_same .closeBrace hr2).map fun _ => [(k, v)]
    · rw [hm, hm']
      have hlt' := after?_length hm
      exact (hb.same (pairs_left r3) (pairs_same r3)).map _
  · rw [pairs_closed hr, pairs_closed hr']
    exact .ok _ hb
  termination_by (ts.length, 2 * Level.disjunction.looseness + 3)

end

/-! ## Statements -/

theorem statementAfter_left (e : Expr) (ts : List Token) : (left (statementAfter e ts)).length ≤ ts.length := by
  match ts with
  | [] => exact Nat.le_refl _
  | t :: ts =>
    simp only [statementAfter]
    split
    · exact Nat.le_refl _
    · split
      · exact Nat.le_refl _
      · exact left_then (Nat.le_succ_of_le (parseAt_left .disjunction ts)) fun _ _ _ => Nat.le_refl _

theorem statementAfter_same (e : Expr) (h : Until q q' ts us) :
    Same q q' (statementAfter e ts) (statementAfter e us) := by
  match ts with
  | [] => cases h
  | t :: ts =>
    obtain ⟨us, rfl, hb⟩ := h.cons
    simp only [statementAfter]
    cases assignOp? t.lexeme with
    | none => exact .ok _ (Or.inr h)
    | some op =>
      cases e.target? with
      | none => exact .error _ h
      | some target => exact (hb.same (parseAt_left .disjunction ts) (parseAt_same .disjunction ts)).map _

theorem statement_same (h : Until q q' ts us) : Same q q' (statement ts).out (statement us).out := by
  rw [statement_out, statement_out]
  exact (parseAt_same .disjunction ts h).then fun e r _ =>
    ⟨statementAfter_left e r, fun _ hr => statementAfter_same e hr⟩

/-! ## Scripts and expressions -/

/-- A reading that leaves nothing. -/
def ended (o : Except Unexpected α) : Except Unexpected (α × List Token) := o.map (·, [])

theorem ended_then (o : Except Unexpected β) (f : β → Except Unexpected α) :
    ended (o >>= f) = o >>= fun b => ended (f b) := by cases o <;> rfl

theorem ended_map (o : Except Unexpected β) (g : β → α) :
    ended (o >>= fun b => .ok (g b)) = ended o >>= fun r => .ok (g r.1, r.2) := by cases o <;> rfl

theorem ended_left {o : Except Unexpected α} {P : List Token → Prop}
    (h : ∀ x, o = .error x → ∃ u, ts = u ++ x.at ∧ P u) : (left (ended o)).length ≤ ts.length := by
  cases o with
  | error x =>
    obtain ⟨u, rfl, -⟩ := h x rfl
    rw [List.length_append]
    exact Nat.le_add_left _ _
  | ok a => exact Nat.zero_le _

theorem Same.fails {o o' : Except Unexpected α} (h : Same q q' (ended o) (ended o')) {x : Unexpected}
    (hx : o = .error x) (hat : q.length < x.at.length) : ∃ y, o' = .error y := by
  subst hx
  obtain ⟨r', -, h'⟩ := h hat
  cases o' with
  | error y => exact ⟨y, rfl⟩
  | ok a => cases h'

theorem statements_left (ts : List Token) : (left (ended (statements ts))).length ≤ ts.length :=
  ended_left fun _ => statements_stuck ts

theorem statementsAfter_left (s : Statement) (ts : List Token) :
    (left (ended (statementsAfter s ts))).length ≤ ts.length := by
  match ts with
  | [] => exact Nat.le_refl _
  | t :: ts =>
    simp only [statementsAfter]
    split
    · rw [ended_map]
      exact left_then (statements_left (t :: ts)) fun _ _ _ => Nat.le_refl _
    · exact Nat.le_refl _

theorem statements_same (ts : List Token) {us : List Token} (h : Until q q' ts us) :
    Same q q' (ended (statements ts)) (ended (statements us)) := by
  match ts with
  | [] => cases h
  | t :: ts =>
    obtain ⟨us, rfl, hb⟩ := h.cons
    by_cases hs : isSeparator t.lexeme = true
    · rw [statements_separator hs, statements_separator hs]
      exact hb.same (statements_left ts) (statements_same ts)
    · have hs : isSeparator t.lexeme = false := by simpa using hs
      rw [statements_statement hs, statements_statement hs, ended_then, ended_then]
      refine (statement_same h).then fun s r hr => ⟨statementsAfter_left s r, fun r' hu => ?_⟩
      match r with
      | [] => cases hu
      | t' :: r =>
        have hlt : r.length < ts.length := Nat.lt_of_succ_lt_succ (out_shorter hr)
        obtain ⟨r', rfl, -⟩ := hu.cons
        simp only [statementsAfter]
        split
        · rw [ended_map, ended_map]
          exact (statements_same (t' :: r) hu).map _
        · exact .error _ hu
  termination_by ts.length

theorem expression_newline {t : Token} (h : t.lexeme = .newline) (ts : List Token) :
    expression (t :: ts) = expression ts := by
  obtain ⟨x, p⟩ := t
  subst h
  rw [expression_eq, expression_eq ts, skipLines_newline]

theorem expression_other {t : Token} (h : t.lexeme ≠ .newline) (ts : List Token) :
    expression (t :: ts) = (parseAt .disjunction (t :: ts)).out >>= fun r => expressionAfter r.1 r.2 := by
  rw [expression_eq, skipLines_other h]

theorem skipLines_length (ts : List Token) : (skipLines ts).length ≤ ts.length :=
  (List.dropWhile_sublist _).length_le

theorem Until.skipLines (h : Until q q' ts us) : Beyond q q' (skipLines ts) (skipLines us) := by
  induction h with
  | here t =>
    obtain ⟨x, p⟩ := t
    by_cases ht : x = .newline
    · subst ht
      rw [skipLines_newline]
      exact Or.inl (skipLines_length q)
    · rw [skipLines_other ht, skipLines_other ht]
      exact Or.inr (.here _)
  | later t h ih =>
    obtain ⟨x, p⟩ := t
    by_cases ht : x = .newline
    · subst ht
      rw [skipLines_newline, skipLines_newline]
      exact ih
    · rw [skipLines_other ht, skipLines_other ht]
      exact Or.inr (.later _ h)

theorem expressionAfter_left (e : Expr) (ts : List Token) :
    (left (ended (expressionAfter e ts))).length ≤ ts.length := by
  unfold expressionAfter
  split
  · exact Nat.zero_le _
  · exact skipLines_length ts

theorem expressionAfter_same (e : Expr) (h : Until q q' ts us) :
    Same q q' (ended (expressionAfter e ts)) (ended (expressionAfter e us)) := by
  unfold expressionAfter
  rcases h.skipLines with hp | hu
  · refine .past (Nat.le_trans ?_ hp)
    split
    · exact Nat.zero_le _
    · exact Nat.le_refl _
  · generalize skipLines ts = r at hu
    generalize skipLines us = r' at hu
    match r with
    | [] => cases hu
    | t :: r =>
      obtain ⟨r', rfl, -⟩ := hu.cons
      exact .error _ hu

theorem expression_same (h : Until q q' ts us) : Same q q' (ended (expression ts)) (ended (expression us)) := by
  induction ts generalizing us with
  | nil => cases h
  | cons t ts ih =>
    obtain ⟨us, rfl, hb⟩ := h.cons
    by_cases ht : t.lexeme = .newline
    · rw [expression_newline ht, expression_newline ht]
      exact hb.same (ended_left fun _ => expression_stuck) ih
    · rw [expression_other ht, expression_other ht, ended_then, ended_then]
      exact (parseAt_same .disjunction _ h).then fun e r _ =>
        ⟨expressionAfter_left e r, fun _ hr => expressionAfter_same e hr⟩

/-- Once a script is refused at a token, it is refused whatever comes after that token. -/
theorem statements_goes_on_failing {u r : List Token} {t : Token} {x : Unexpected}
    (h : statements (u ++ t :: r) = .error x) (hat : x.at = t :: r) (r' : List Token) :
    ∃ y, statements (u ++ t :: r') = .error y :=
  (statements_same _ (until_append u t r r')).fails h (by rw [hat]; exact Nat.lt_succ_self _)

theorem expression_goes_on_failing {u r : List Token} {t : Token} {x : Unexpected}
    (h : expression (u ++ t :: r) = .error x) (hat : x.at = t :: r) (r' : List Token) :
    ∃ y, expression (u ++ t :: r') = .error y :=
  (expression_same (until_append u t r r')).fails h (by rw [hat]; exact Nat.lt_succ_self _)

/-! ## Texts -/

/-- The fault stands at the first of the tokens that no right text has after those before it; or
    at the end, when all the tokens are those of a right text that goes on. -/
def Blames (parse : List Token → Except Unexpected α) (ts : Tokens) (f : Fault) : Prop :=
  ∃ u r x, ts.list = u ++ r ∧
    f = .bad ⟨.unexpected x (r.head?.map (·.lexeme)), some ((r.head?.map (·.pos)).getD ts.stop)⟩ ∧
    (∃ w a, parse (u ++ w) = .ok a) ∧ ∀ t ∈ r.head?, ∀ w a, parse (u ++ t :: w) ≠ .ok a

theorem parseTokens_blames {parse : List Token → Except Unexpected α} {text : String} {ts : Tokens} {f : Fault}
    (hscan : scan text = .ok ts) (hbad : parseTokens parse text = .error f)
    (hbegun : ∀ ts x, parse ts = .error x → ∃ u, ts = u ++ x.at ∧ ∃ w a, parse (u ++ w) = .ok a)
    (hgone : ∀ u t r x, parse (u ++ t :: r) = .error x → x.at = t :: r →
      ∀ r', ∃ y, parse (u ++ t :: r') = .error y) :
    Blames parse ts f := by
  unfold parseTokens at hbad
  simp only [hscan] at hbad
  cases hp : parse ts.list with
  | ok a =>
    rw [hp] at hbad
    cases hbad
  | error x =>
    rw [hp] at hbad
    cases hbad
    obtain ⟨u, hu, hw⟩ := hbegun ts.list x hp
    refine ⟨u, x.at, x.expectation, hu, rfl, hw, fun t ht w a hok => ?_⟩
    obtain ⟨r, hr⟩ := List.head?_eq_some_iff.mp ht
    rw [hu, hr] at hp
    obtain ⟨y, hy⟩ := hgone u t r x hp hr w
    rw [hok] at hy
    cases hy

theorem words_placed (w : List Lexeme) (p : Position) : words (w.map (Token.mk · p)) = w := by
  simp [words, Function.comp_def]

theorem ProgramBegun.completes {u : List Token} (h : ProgramBegun (words u)) :
    ∃ w ss, statements (u ++ w) = .ok ss := by
  obtain ⟨ss, w, hp⟩ := h
  exact ⟨w.map (Token.mk · ⟨1, 1⟩), ss, hp.reads _ (by rw [words_append, words_placed])⟩

theorem LoneBegun.completes {u : List Token} (h : LoneBegun (words u)) : ∃ w e, expression (u ++ w) = .ok e := by
  obtain ⟨e, w, hl⟩ := h
  exact ⟨w.map (Token.mk · ⟨1, 1⟩), e, hl.reads (by rw [words_append, words_placed])⟩

/-- A text of tokens that is no script, or no expression, is refused at the first token that
    cannot be part of one after the tokens before it. -/
theorem refused_where_it_goes_wrong {text : String} {ts : Tokens} (h : scan text = .ok ts) :
    (∀ f, parseScript text = .error f → Blames statements ts f) ∧
    (∀ f, parseExpression text = .error f → Blames expression ts f) := by
  refine ⟨fun f hf => parseTokens_blames h hf (fun ts x hx => ?_) fun _ _ _ _ => statements_goes_on_failing,
    fun f hf => parseTokens_blames h hf (fun ts x hx => ?_) fun _ _ _ _ => expression_goes_on_failing⟩
  · obtain ⟨u, hu, hb⟩ := statements_stuck ts hx
    exact ⟨u, hu, hb.completes⟩
  · obtain ⟨u, hu, hb⟩ := expression_stuck hx
    exact ⟨u, hu, hb.completes⟩

theorem refused_inside_a_call :
    scan "f(a]" = .ok
      ⟨[⟨.ident "f", ⟨1, 1⟩⟩, ⟨.symbol .openParen, ⟨1, 2⟩⟩, ⟨.ident "a", ⟨1, 3⟩⟩, ⟨.symbol .closeBracket, ⟨1, 4⟩⟩],
        ⟨1, 5⟩⟩ ∧
    parseScript "f(a]" =
      .error (.bad ⟨.unexpected (.symbol .closeParen) (some (.symbol .closeBracket)), some ⟨1, 4⟩⟩) ∧
    Blames statements
      ⟨[⟨.ident "f", ⟨1, 1⟩⟩, ⟨.symbol .openParen, ⟨1, 2⟩⟩, ⟨.ident "a", ⟨1, 3⟩⟩, ⟨.symbol .closeBracket, ⟨1, 4⟩⟩],
        ⟨1, 5⟩⟩
      (.bad ⟨.unexpected (.symbol .closeParen) (some (.symbol .closeBracket)), some ⟨1, 4⟩⟩) := by
  have hscan : scan "f(a]" = .ok
      ⟨[⟨.ident "f", ⟨1, 1⟩⟩, ⟨.symbol .openParen, ⟨1, 2⟩⟩, ⟨.ident "a", ⟨1, 3⟩⟩, ⟨.symbol .closeBracket, ⟨1, 4⟩⟩],
        ⟨1, 5⟩⟩ := by cbv
  have hbad : parseScript "f(a]" =
      .error (.bad ⟨.unexpected (.symbol .closeParen) (some (.symbol .closeBracket)), some ⟨1, 4⟩⟩) := by cbv
  exact ⟨hscan, hbad, (refused_where_it_goes_wrong hscan).1 _ hbad⟩

end StepFlow.Script
