/-
  StepFlow.Proofs.Script.RoundTrip — the text of an expression is read as the expression.

  `Spells p cs` joins the two halves of reading: the lexemes that `cs` is cut into before a
  boundary derive the phrase `p`. One lemma for each rule of the grammar says how the text of a
  phrase is put together from those of its parts, and `Renderable.spells` follows the tree.
  A text that spells something begins with no `=`, which would make a sign before it another
  sign.
-/

import StepFlow.Proofs.Script.Acceptance
import StepFlow.Proofs.Script.Lexing

namespace StepFlow.Script

structure Spells (p : Phrase) (cs : List Char) : Prop where
  head : cs.head? ≠ some '='
  reads : ∃ ws, Derives p ws ∧ Cuts cs ws

theorem head_append {c : Char} {u v : List Char} (hu : u.head? ≠ some c) (hv : v.head? ≠ some c) :
    (u ++ v).head? ≠ some c := by
  cases u with
  | nil => exact hv
  | cons => exact hu

/-! ## Operators and signs -/

theorem binary_joins (op : BinaryOp) :
    ∃ x, Joins op.level x (.binary op) ∧ ∀ rest, Lexes op.text.toList x (' ' :: rest) := by
  cases op with
  | add => exact ⟨_, .plus, fun _ => ⟨'+', [], rfl, rfl⟩⟩
  | sub => exact ⟨_, .minus, fun _ => ⟨'-', [], rfl, rfl⟩⟩
  | mul => exact ⟨_, .times, fun _ => ⟨'*', [], rfl, rfl⟩⟩
  | div => exact ⟨_, .slash, fun _ => ⟨'/', [], rfl, rfl⟩⟩
  | mod => exact ⟨_, .percent, fun _ => ⟨'%', [], rfl, rfl⟩⟩
  | eq => exact ⟨_, .eq, fun _ => ⟨'=', ['='], rfl, rfl⟩⟩
  | ne => exact ⟨_, .ne, fun _ => ⟨'!', ['='], rfl, rfl⟩⟩
  | order op =>
    cases op with
    | lt => exact ⟨_, .lt, fun _ => ⟨'<', [], rfl, rfl⟩⟩
    | le => exact ⟨_, .le, fun _ => ⟨'<', ['='], rfl, rfl⟩⟩
    | gt => exact ⟨_, .gt, fun _ => ⟨'>', [], rfl, rfl⟩⟩
    | ge => exact ⟨_, .ge, fun _ => ⟨'>', ['='], rfl, rfl⟩⟩

theorem logical_joins (op : LogicalOp) :
    ∃ x, Joins op.level x (.logical op) ∧ ∀ rest, Lexes op.text.toList x (' ' :: rest) := by
  cases op with
  | and => exact ⟨_, .and, fun rest => lexes_word (s := "and") rfl (boundary_cons _ (by decide))⟩
  | or => exact ⟨_, .or, fun rest => lexes_word (s := "or") rfl (boundary_cons _ (by decide))⟩

theorem unary_signs (op : UnaryOp) :
    ∃ x, Signs op.level x (.unary op) ∧ ∀ {cs : List Char} {ws : List Lexeme}, cs.head? ≠ some '=' →
      Cuts cs ws → Cuts (spellSign op ++ cs) (x :: ws) := by
  cases op with
  | not =>
    refine ⟨_, .not, fun _ h rest vs hb hr => scans_blank ?_⟩
    exact (lexes_word (s := "not") rfl (boundary_cons _ (by decide))).scans (scans_blank (h _ _ hb hr))
  | neg =>
    refine ⟨_, .minus, fun hc h rest vs hb hr => ?_⟩
    exact (lexes_sign (head_append hc hb.head)).1.scans (h _ _ hb hr)
  | pos =>
    refine ⟨_, .plus, fun hc h rest vs hb hr => ?_⟩
    exact (lexes_sign (head_append hc hb.head)).2.scans (h _ _ hb hr)

/-! ## Levels -/

theorem Spells.loosen {l m : Level} {e : Expr} {cs : List Char} (h : Spells (.expr l e) cs)
    (hm : l.looseness ≤ m.looseness) : Spells (.expr m e) cs := by
  obtain ⟨ws, hd, hs⟩ := h.reads
  exact ⟨h.head, ws, hd.loosen hm, hs⟩

theorem Spells.whole {e : Expr} {cs : List Char} (h : Spells (.expr e.level e) cs) :
    Spells (.expr .disjunction e) cs := h.loosen (Level.looseness_le _)

theorem cuts_parenthesised {cs : List Char} {ws : List Lexeme} (h : Cuts cs ws) :
    Cuts (parenthesised cs) (.symbol .openParen :: (ws ++ [.symbol .closeParen])) :=
  Cuts.enclosed h (fun _ => rfl) (fun _ => rfl) fun _ => boundary_cons _ (by decide)

/-- A child stands where its place asks for a level. -/
theorem Spells.within {l : Level} {e : Expr} {cs : List Char} (h : Spells (.expr e.level e) cs) :
    Spells (.expr l e) (within l e cs) := by
  unfold Script.within
  split
  · rename_i hl
    exact h.loosen hl
  · obtain ⟨ws, hd, hs⟩ := h.whole.reads
    have hgroup : Spells (.expr .access e) (parenthesised cs) :=
      ⟨(by intro h; cases h), _, .group hd, cuts_parenthesised hs⟩
    exact hgroup.loosen l.looseness_pos

theorem Spells.chain {l : Level} {op : String} {x : Lexeme} {f : Expr → Expr → Expr} {a b : Expr} {u v : List Char}
    (hj : Joins l x f) (hop : ∀ rest, Lexes op.toList x (' ' :: rest)) (ha : Spells (.expr a.level a) u)
    (hb : Spells (.expr b.level b) v) : Spells (.expr l (f a b)) (spellChain l op a b u v) := by
  have hl := ha.within (l := l)
  obtain ⟨wl, hdl, hsl⟩ := hl.reads
  obtain ⟨wr, hdr, hsr⟩ := (hb.within (l := l.tighter)).reads
  have hright : Cuts (' ' :: (op.toList ++ ' ' :: Script.within l.tighter b v)) (x :: wr) := by
    intro rest vs hb hr
    rw [List.cons_append, List.append_assoc]
    exact scans_blank ((hop _).scans (scans_blank (hsr _ _ hb hr)))
  exact ⟨head_append hl.head (by intro h; cases h), _, .joined hj hdl hdr,
    Cuts.append hsl hright fun _ => boundary_cons _ (by decide)⟩

theorem Spells.sign {op : UnaryOp} {e : Expr} {cs : List Char} (h : Spells (.expr e.level e) cs) :
    Spells (.expr op.level (.unary op e)) (spellSign op ++ Script.within op.level e cs) := by
  obtain ⟨x, hx, hsign⟩ := unary_signs op
  have hw := h.within (l := op.level)
  obtain ⟨ws, hd, hs⟩ := hw.reads
  refine ⟨?_, _, .signed hx hd, hsign hw.head hs⟩
  cases op <;> (intro h; cases h)

/-! ## Values of one lexeme -/

theorem spells_lexeme {e : Expr} {cs : List Char} {x : Lexeme} (hc : cs.head? ≠ some '=')
    (hd : Derives (.expr .access e) [x]) (hx : ∀ {rest}, Boundary rest → Lexes cs x rest) :
    Spells (.expr .access e) cs := ⟨hc, [x], hd, cuts_lexeme hx⟩

theorem isWord_head {s : String} (h : isWord s = true) : s.toList.head? ≠ some '=' := by
  obtain ⟨c, u, hs, hc, -⟩ := isWord_iff.mp h
  rw [hs]
  intro h
  cases h
  cases hc

theorem spells_keyword {s : String} {k : Keyword} {v : Scalar} (hw : isWord s = true) (hk : wordLexeme s = .keyword k)
    (hv : k.value? = some v) : Spells (.expr .access (.literal v)) s.toList :=
  spells_lexeme (isWord_head hw) (.word hv) fun hb => hk ▸ lexes_word hw hb

theorem spells_int {n : Nat} (h : (Nat.toDigits 10 n).length ≤ Decimal.digitLimit) :
    Spells (.expr .access (.literal (.int n))) (toString (n : Int)).toList := by
  have htext : (toString (n : Int)).toList = Nat.toDigits 10 n := Nat.toList_repr
  rw [htext]
  refine spells_lexeme ?_ (.number (.int n)) (lexes_number h)
  intro he
  have := Numeral.toDigits_isDigit n _ (List.mem_of_mem_head? he)
  cases this

theorem spells_name {n : String} (h : isName n = true) : Spells (.expr .access (.name n)) n.toList := by
  obtain ⟨hw, hl⟩ := isName_iff.mp h
  exact spells_lexeme (isWord_head hw) (.name n) fun hb => hl ▸ lexes_word hw hb

/-! ## Values with parts -/

theorem Spells.member {e : Expr} {cs : List Char} {n : String} (h : Spells (.expr e.level e) cs)
    (hn : isWord n = true) :
    Spells (.expr .access (.member e n)) (Script.within .access e cs ++ '.' :: n.toList) := by
  have hw := h.within (l := .access)
  obtain ⟨ws, hd, hs⟩ := hw.reads
  have hword : Cuts n.toList [wordLexeme n] := cuts_lexeme (lexes_word hn)
  have hdot := Cuts.mark (c := '.') (s := .dot) (fun _ => rfl) hword
  exact ⟨head_append hw.head (by intro h; cases h), _, .member hd (wordLexeme_names n),
    Cuts.append hs hdot fun _ => boundary_dot hn _⟩

theorem Spells.index {e k : Expr} {u v : List Char} (he : Spells (.expr e.level e) u)
    (hk : Spells (.expr k.level k) v) :
    Spells (.expr .access (.index e k)) (Script.within .access e u ++ '[' :: (v ++ [']'])) := by
  have hw := he.within (l := .access)
  obtain ⟨we, hde, hse⟩ := hw.reads
  obtain ⟨wk, hdk, hsk⟩ := hk.whole.reads
  have hkey := Cuts.enclosed (c := '[') (d := ']') (s := .openBracket) (t := .closeBracket) hsk (fun _ => rfl)
    (fun _ => rfl) fun _ => boundary_cons _ (by decide)
  exact ⟨head_append hw.head (by intro h; cases h), _, .index hde hdk,
    Cuts.append hse hkey fun _ => boundary_cons _ (by decide)⟩

theorem spells_items {es : List Expr} (h : ∀ e ∈ es, Spells (.expr e.level e) (spell e)) :
    Spells (.items es) (spellItems es) := by
  induction es with
  | nil => exact ⟨(by intro h; cases h), [], .noItems, cuts_nil⟩
  | cons e es ih =>
    have he := (h e (by simp)).whole
    obtain ⟨we, hde, hse⟩ := he.reads
    obtain ⟨ws, hds, hss⟩ := (ih fun x hx => h x (List.mem_cons_of_mem e hx)).reads
    cases es with
    | nil => exact ⟨he.head, we, .lastItem hde, hse⟩
    | cons x es =>
      have hcomma := Cuts.mark (c := ',') (s := .comma) (fun _ => rfl) hss
      exact ⟨head_append he.head (by intro h; cases h), _, .item hde hds,
        Cuts.append hse hcomma fun _ => boundary_cons _ (by decide)⟩

theorem spells_pairs {ps : List (Expr × Expr)} (hk : ∀ p ∈ ps, Spells (.expr p.1.level p.1) (spell p.1))
    (he : ∀ p ∈ ps, Spells (.expr p.2.level p.2) (spell p.2)) : Spells (.pairs ps) (spellPairs ps) := by
  induction ps with
  | nil => exact ⟨(by intro h; cases h), [], .noPairs, cuts_nil⟩
  | cons p ps ih =>
    obtain ⟨k, e⟩ := p
    obtain ⟨wk, hdk, hsk⟩ := (hk (k, e) (by simp)).whole.reads
    obtain ⟨we, hde, hse⟩ := (he (k, e) (by simp)).whole.reads
    have hps := ih (fun x hx => hk x (List.mem_cons_of_mem _ hx)) fun x hx => he x (List.mem_cons_of_mem _ hx)
    -- a key in parentheses begins with no name
    have hkey := Derives.exprKey (by intro n h; cases h) ((Derives.group hdk).loosen (m := .disjunction) (by decide))
    have hcolon : ∀ {v : List Char} {wv : List Lexeme}, Cuts v wv →
        Cuts (parenthesised (spell k) ++ ':' :: v) (_ ++ .symbol .colon :: wv) :=
      fun h => Cuts.append (cuts_parenthesised hsk) (Cuts.mark (fun _ => rfl) h) fun _ => boundary_cons _ (by decide)
    cases ps with
    | nil => exact ⟨(by intro h; cases h), _, .lastPair hkey hde, hcolon hse⟩
    | cons q ps =>
      obtain ⟨ws, hds, hss⟩ := hps.reads
      have hcomma := Cuts.mark (c := ',') (s := .comma) (fun _ => rfl) hss
      exact ⟨(by intro h; cases h), _, .pair hkey hde hds,
        hcolon (Cuts.append hse hcomma fun _ => boundary_cons _ (by decide))⟩

theorem Spells.call {n : String} {es : List Expr} {cs : List Char} (hn : isName n = true) (h : Spells (.items es) cs) :
    Spells (.expr .access (.call n es)) (n.toList ++ parenthesised cs) := by
  obtain ⟨hw, hl⟩ := isName_iff.mp hn
  obtain ⟨ws, hd, hs⟩ := h.reads
  have hname : Cuts n.toList [.ident n] := cuts_lexeme fun hb => hl ▸ lexes_word hw hb
  exact ⟨head_append (isWord_head hw) (by intro h; cases h), _, .call n hd,
    Cuts.append hname (cuts_parenthesised hs) fun _ => boundary_cons _ (by decide)⟩

theorem Spells.list {es : List Expr} {cs : List Char} (h : Spells (.items es) cs) :
    Spells (.expr .access (.list es)) ('[' :: (cs ++ [']'])) := by
  obtain ⟨ws, hd, hs⟩ := h.reads
  exact ⟨(by intro h; cases h), _, .list hd,
    Cuts.enclosed hs (fun _ => rfl) (fun _ => rfl) fun _ => boundary_cons _ (by decide)⟩

theorem Spells.object {ps : List (Expr × Expr)} {cs : List Char} (h : Spells (.pairs ps) cs) :
    Spells (.expr .access (.object ps)) ('\x7b' :: (cs ++ ['\x7d'])) := by
  obtain ⟨ws, hd, hs⟩ := h.reads
  exact ⟨(by intro h; cases h), _, .object hd,
    Cuts.enclosed hs (fun _ => rfl) (fun _ => rfl) fun _ => boundary_cons _ (by decide)⟩

/-! ## Trees -/

theorem Renderable.spells {e : Expr} (h : Renderable e) : Spells (.expr e.level e) (spell e) := by
  induction h with
  | null => rw [spell]; exact spells_keyword (s := "null") (k := .nullWord) rfl rfl rfl
  | bool b =>
    rw [spell]
    cases b with
    | true => exact spells_keyword (s := "true") (k := .trueWord) rfl rfl rfl
    | false => exact spells_keyword (s := "false") (k := .falseWord) rfl rfl rfl
  | int hn => rw [spell]; exact spells_int hn
  | str s => rw [spell]; exact spells_lexeme (by intro h; cases h) (.string s) fun _ => lexes_string s _
  | name hn => rw [spell]; exact spells_name hn
  | member _ hn ih => rw [spell]; exact ih.member hn
  | index _ _ ihe ihk => rw [spell]; exact ihe.index ihk
  | call hn _ ih => rw [spell]; exact .call hn (spells_items ih)
  | list _ ih => rw [spell]; exact (spells_items ih).list
  | object _ _ ihk ihe => rw [spell]; exact (spells_pairs ihk ihe).object
  | unary _ ih => rw [spell]; exact ih.sign
  | @binary op a b _ _ iha ihb =>
    obtain ⟨x, hx, hop⟩ := binary_joins op
    rw [spell]
    exact .chain hx hop iha ihb
  | @logical op a b _ _ iha ihb =>
    obtain ⟨x, hx, hop⟩ := logical_joins op
    rw [spell]
    exact .chain hx hop iha ihb

/-- The text of an expression, if it is not too long to be read, is read as the expression. -/
theorem parsing_undoes_rendering {e : Expr} (h : Renderable e) (hl : (render e).length ≤ lengthLimit) :
    parseExpression (render e) = .ok e := by
  obtain ⟨ws, hd, hs⟩ := h.spells.whole.reads
  have hscans : Scans (spell e) ws := by
    have := hs _ _ boundary_nil scans_nil
    rwa [List.append_nil, List.append_nil] at this
  obtain ⟨ts, hts, hw⟩ := hscans 1 1 0
  have hshort : ¬ lengthLimit < (spell e).length := by
    rw [render, String.length_ofList] at hl
    omega
  have hscan : scan (render e) = .ok ts := by
    unfold scan render
    rw [String.toList_ofList]
    simp only [if_neg hshort, hts]
  have hlone : Lone (words ts.list) e := by
    have := Lone.around 0 0 hd
    rw [hw]
    simpa using this
  exact (parseExpression_ok hscan).mpr hlone

theorem parsing_of_a_rendered_difference :
    render (.binary .sub (.member (.literal (.int 1)) "e5") (.binary .sub (.name "a") (.unary .neg (.literal (.str "\n"))))) =
      "1.e5 - (a - -\"\\n\")" ∧
    parseExpression "1.e5 - (a - -\"\\n\")" =
      .ok (.binary .sub (.member (.literal (.int 1)) "e5")
        (.binary .sub (.name "a") (.unary .neg (.literal (.str "\n"))))) := by
  have hr : Renderable (.binary .sub (.member (.literal (.int 1)) "e5")
      (.binary .sub (.name "a") (.unary .neg (.literal (.str "\n"))))) :=
    .binary (.member (.int (n := 1) (by decide)) rfl) (.binary (.name rfl) (.unary (.str "\n")))
  have htext : render (.binary .sub (.member (.literal (.int 1)) "e5")
      (.binary .sub (.name "a") (.unary .neg (.literal (.str "\n"))))) = "1.e5 - (a - -\"\\n\")" := by cbv
  refine ⟨htext, ?_⟩
  have hparse := parsing_undoes_rendering hr (by rw [htext]; decide)
  rwa [htext] at hparse

end StepFlow.Script
