/-
  StepFlow.Proofs.Script.Grammar — the grammar of the flow language, as rules that derive a
  list of lexemes from a tree.

  The rules say nothing of how a text is read. A level of operators is a chain that groups to
  the left (`Derives.joined`); a level of signs is a run before an operand (`Derives.signed`);
  the tightest level is a value with properties and indexes after it.
  - Items and pairs may have a comma after the last one.
  - A key that is one name is that name as a text. A key that begins with a name is nothing
    else, so `{a + 1: 2}` is no object.
  - A target may stand in parentheses: it is any expression whose tree is a target.

  Two ranks tell which lexemes matter at a level: an expression begins with a lexeme whose
  `entry` is not looser than its level (`Derives.begins`), and a lexeme goes on with an
  expression only at levels from its `reach` on.
-/

import StepFlow.Script.Parse

namespace StepFlow.Script

/-- What tokens say, wherever they stand. -/
def words (ts : List Token) : List Lexeme := ts.map (·.lexeme)

/-- The lexeme joins two operands of a level, and their trees to a tree. -/
inductive Joins : Level → Lexeme → (Expr → Expr → Expr) → Prop
  | or : Joins .disjunction (.keyword .or) (.logical .or)
  | orOr : Joins .disjunction (.symbol .orOr) (.logical .or)
  | and : Joins .conjunction (.keyword .and) (.logical .and)
  | andAnd : Joins .conjunction (.symbol .andAnd) (.logical .and)
  | eq : Joins .comparison (.symbol .eq) (.binary .eq)
  | strictEq : Joins .comparison (.symbol .strictEq) (.binary .eq)
  | ne : Joins .comparison (.symbol .ne) (.binary .ne)
  | strictNe : Joins .comparison (.symbol .strictNe) (.binary .ne)
  | lt : Joins .comparison (.symbol .lt) (.binary (.order .lt))
  | le : Joins .comparison (.symbol .le) (.binary (.order .le))
  | gt : Joins .comparison (.symbol .gt) (.binary (.order .gt))
  | ge : Joins .comparison (.symbol .ge) (.binary (.order .ge))
  | plus : Joins .sum (.symbol .plus) (.binary .add)
  | minus : Joins .sum (.symbol .minus) (.binary .sub)
  | times : Joins .product (.symbol .times) (.binary .mul)
  | slash : Joins .product (.symbol .slash) (.binary .div)
  | percent : Joins .product (.symbol .percent) (.binary .mod)

/-- The lexeme is a sign before an operand of a level. -/
inductive Signs : Level → Lexeme → (Expr → Expr) → Prop
  | not : Signs .negation (.keyword .not) (.unary .not)
  | bang : Signs .negation (.symbol .bang) (.unary .not)
  | minus : Signs .sign (.symbol .minus) (.unary .neg)
  | plus : Signs .sign (.symbol .plus) (.unary .pos)

/-- The lexeme names a property: words that stand for a value do so too. -/
inductive Names : Lexeme → String → Prop
  | ident (n : String) : Names (.ident n) n
  | keyword (k : Keyword) : Names (.keyword k) k.text

/-- What may be derived, with its tree. -/
inductive Phrase where
  | expr (l : Level) (e : Expr)
  | items (es : List Expr)
  | key (e : Expr)
  | pairs (ps : List (Expr × Expr))

inductive Derives : Phrase → List Lexeme → Prop
  | tighter {l : Level} {e : Expr} {w : List Lexeme} :
    l ≠ .access → Derives (.expr l.tighter e) w → Derives (.expr l e) w
  | joined {l : Level} {x : Lexeme} {f : Expr → Expr → Expr} {a b : Expr} {u v : List Lexeme} :
    Joins l x f → Derives (.expr l a) u → Derives (.expr l.tighter b) v → Derives (.expr l (f a b)) (u ++ x :: v)
  | signed {l : Level} {x : Lexeme} {f : Expr → Expr} {e : Expr} {w : List Lexeme} :
    Signs l x f → Derives (.expr l e) w → Derives (.expr l (f e)) (x :: w)
  | member {e : Expr} {w : List Lexeme} {x : Lexeme} {n : String} :
    Derives (.expr .access e) w → Names x n → Derives (.expr .access (.member e n)) (w ++ [.symbol .dot, x])
  | index {e k : Expr} {u v : List Lexeme} :
    Derives (.expr .access e) u → Derives (.expr .disjunction k) v →
      Derives (.expr .access (.index e k)) (u ++ .symbol .openBracket :: (v ++ [.symbol .closeBracket]))
  | number (n : Numeral) : Derives (.expr .access (.literal n.scalar)) [.number n]
  | string (s : String) : Derives (.expr .access (.literal (.str s))) [.string s]
  | word {k : Keyword} {v : Scalar} : k.value? = some v → Derives (.expr .access (.literal v)) [.keyword k]
  | name (n : String) : Derives (.expr .access (.name n)) [.ident n]
  | call {es : List Expr} {w : List Lexeme} (n : String) :
    Derives (.items es) w →
      Derives (.expr .access (.call n es)) (.ident n :: .symbol .openParen :: (w ++ [.symbol .closeParen]))
  | group {e : Expr} {w : List Lexeme} :
    Derives (.expr .disjunction e) w →
      Derives (.expr .access e) (.symbol .openParen :: (w ++ [.symbol .closeParen]))
  | list {es : List Expr} {w : List Lexeme} :
    Derives (.items es) w →
      Derives (.expr .access (.list es)) (.symbol .openBracket :: (w ++ [.symbol .closeBracket]))
  | object {ps : List (Expr × Expr)} {w : List Lexeme} :
    Derives (.pairs ps) w →
      Derives (.expr .access (.object ps)) (.symbol .openBrace :: (w ++ [.symbol .closeBrace]))
  | noItems : Derives (.items []) []
  | lastItem {e : Expr} {w : List Lexeme} : Derives (.expr .disjunction e) w → Derives (.items [e]) w
  | item {e : Expr} {es : List Expr} {u v : List Lexeme} :
    Derives (.expr .disjunction e) u → Derives (.items es) v → Derives (.items (e :: es)) (u ++ .symbol .comma :: v)
  | bareKey (n : String) : Derives (.key (.literal (.str n))) [.ident n]
  | exprKey {e : Expr} {w : List Lexeme} :
    (∀ n, w.head? ≠ some (.ident n)) → Derives (.expr .disjunction e) w → Derives (.key e) w
  | noPairs : Derives (.pairs []) []
  | lastPair {k e : Expr} {u v : List Lexeme} :
    Derives (.key k) u → Derives (.expr .disjunction e) v → Derives (.pairs [(k, e)]) (u ++ .symbol .colon :: v)
  | pair {k e : Expr} {ps : List (Expr × Expr)} {u v w : List Lexeme} :
    Derives (.key k) u → Derives (.expr .disjunction e) v → Derives (.pairs ps) w →
      Derives (.pairs ((k, e) :: ps)) (u ++ .symbol .colon :: (v ++ .symbol .comma :: w))

inductive Assigns : Lexeme → AssignOp → Prop
  | set : Assigns (.symbol .assign) .set
  | add : Assigns (.symbol .plusAssign) .add
  | sub : Assigns (.symbol .minusAssign) .sub
  | mul : Assigns (.symbol .timesAssign) .mul
  | div : Assigns (.symbol .slashAssign) .div

inductive Sentence : List Lexeme → Statement → Prop
  | expr {e : Expr} {w : List Lexeme} : Derives (.expr .disjunction e) w → Sentence w (.expr e)
  | assign {target : Target} {op : AssignOp} {x : Lexeme} {e : Expr} {u v : List Lexeme} :
    Derives (.expr .disjunction target.expr) u → Assigns x op → Derives (.expr .disjunction e) v →
      Sentence (u ++ x :: v) (.assign target op e)

inductive Separates : Lexeme → Prop
  | newline : Separates .newline
  | semicolon : Separates (.symbol .semicolon)

/-- Statements with separators between them, and more of these anywhere around them. -/
inductive Program : List Lexeme → List Statement → Prop
  | nil : Program [] []
  | separator {x : Lexeme} {w : List Lexeme} {ss : List Statement} : Separates x → Program w ss → Program (x :: w) ss
  | last {w : List Lexeme} {s : Statement} : Sentence w s → Program w [s]
  | statement {x : Lexeme} {u v : List Lexeme} {s : Statement} {ss : List Statement} :
    Sentence u s → Separates x → Program v ss → Program (u ++ x :: v) (s :: ss)

/-- One expression with line feeds around it. -/
inductive Lone : List Lexeme → Expr → Prop
  | around {e : Expr} {w : List Lexeme} (before after : Nat) :
    Derives (.expr .disjunction e) w →
      Lone (List.replicate before .newline ++ w ++ List.replicate after .newline) e

/-! ## The tables of the readers -/

@[simp] theorem words_nil : words [] = [] := rfl
@[simp] theorem words_cons (t : Token) (ts : List Token) : words (t :: ts) = t.lexeme :: words ts := rfl
@[simp] theorem words_append (ts us : List Token) : words (ts ++ us) = words ts ++ words us := List.map_append

theorem words_eq_append {ts : List Token} {u v : List Lexeme} (h : words ts = u ++ v) :
    ∃ tu tv, ts = tu ++ tv ∧ words tu = u ∧ words tv = v := List.map_eq_append_iff.mp h

theorem words_eq_cons {ts : List Token} {x : Lexeme} {w : List Lexeme} (h : words ts = x :: w) :
    ∃ p tw, ts = ⟨x, p⟩ :: tw ∧ words tw = w := by
  obtain ⟨t, tw, rfl, rfl, rfl⟩ := List.map_eq_cons_iff.mp h
  exact ⟨t.pos, tw, rfl, rfl⟩

theorem words_eq_nil {ts : List Token} (h : words ts = []) : ts = [] := List.map_eq_nil_iff.mp h

theorem words_eq_single {ts : List Token} {x : Lexeme} (h : words ts = [x]) : ∃ p, ts = [⟨x, p⟩] := by
  obtain ⟨p, tw, rfl, hw⟩ := words_eq_cons h
  exact ⟨p, by rw [words_eq_nil hw]⟩

theorem words_eq_snoc {ts : List Token} {x : Lexeme} {w : List Lexeme} (h : words ts = w ++ [x]) :
    ∃ tw p, ts = tw ++ [⟨x, p⟩] ∧ words tw = w := by
  obtain ⟨tw, tx, rfl, hw, hx⟩ := words_eq_append h
  obtain ⟨p, rfl⟩ := words_eq_single hx
  exact ⟨tw, p, rfl, hw⟩

theorem joins_iff {l : Level} {x : Lexeme} {f : Expr → Expr → Expr} : Joins l x f ↔ l.operator? x = some f := by
  constructor
  · intro h; cases h <;> rfl
  · intro h
    unfold Level.operator? at h
    split at h
    case h_5 => split at h <;> cases h <;> constructor
    all_goals cases h <;> constructor

theorem signs_iff {l : Level} {x : Lexeme} {f : Expr → Expr} : Signs l x f ↔ l.sign? x = some f := by
  constructor
  · intro h; cases h <;> rfl
  · intro h
    unfold Level.sign? at h
    split at h <;> cases h <;> constructor

theorem assigns_iff {x : Lexeme} {op : AssignOp} : Assigns x op ↔ assignOp? x = some op := by
  constructor
  · intro h; cases h <;> rfl
  · intro h
    unfold assignOp? at h
    split at h <;> cases h <;> constructor

theorem separates_iff {x : Lexeme} : Separates x ↔ isSeparator x = true := by
  constructor
  · intro h; cases h <;> rfl
  · intro h
    unfold isSeparator at h
    split at h
    · constructor
    · constructor
    · cases h

theorem target_iff {e : Expr} {t : Target} : e.target? = some t ↔ t.expr = e := by
  constructor
  · intro h
    unfold Expr.target? at h
    split at h <;> cases h <;> rfl
  · rintro rfl
    cases t <;> rfl

/-! ## Where expressions begin and what goes on with them -/

/-- The tightest level whose expressions may begin with a lexeme, by its looseness. -/
def entry : Lexeme → Nat
  | .number _ | .string _ | .ident _ => 1
  | .symbol .openParen | .symbol .openBracket | .symbol .openBrace => 1
  | .symbol .minus | .symbol .plus => 2
  | .keyword .not | .symbol .bang => 6
  | .keyword k => if k.value?.isSome then 1 else 9
  | _ => 9

/-- The tightest level at which a lexeme goes on with an expression, by its looseness; an
    opening parenthesis goes on with a name alone. -/
def reach : Lexeme → Nat
  | .symbol .openParen => 0
  | .symbol .dot | .symbol .openBracket => 1
  | .symbol .times | .symbol .slash | .symbol .percent => 3
  | .symbol .plus | .symbol .minus => 4
  | .symbol .eq | .symbol .strictEq | .symbol .ne | .symbol .strictNe => 5
  | .symbol .lt | .symbol .le | .symbol .gt | .symbol .ge => 5
  | .keyword .and | .symbol .andAnd => 7
  | .keyword .or | .symbol .orOr => 8
  | _ => 9

theorem joins_reach {l : Level} {x : Lexeme} {f : Expr → Expr → Expr} (h : Joins l x f) :
    reach x = l.looseness := by
  cases h <;> rfl

theorem signs_entry {l : Level} {x : Lexeme} {f : Expr → Expr} (h : Signs l x f) : entry x = l.looseness := by
  cases h <;> rfl

theorem operator?_beyond {l : Level} {x : Lexeme} (h : l.looseness < reach x) : l.operator? x = none := by
  cases ho : l.operator? x with
  | none => rfl
  | some f =>
    have := joins_reach (joins_iff.mpr ho)
    omega

theorem sign?_before {l : Level} {x : Lexeme} (h : entry x < l.looseness) : l.sign? x = none := by
  cases hs : l.sign? x with
  | none => rfl
  | some f =>
    have := signs_entry (signs_iff.mpr hs)
    omega

theorem Level.looseness_le (l : Level) : l.looseness ≤ 8 := by cases l <;> decide

theorem Level.looseness_succ {l : Level} (h : l ≠ .access) : l.tighter.looseness + 1 = l.looseness := by
  cases l <;> first | rfl | exact absurd rfl h

theorem entry_word {k : Keyword} {v : Scalar} (h : k.value? = some v) : entry (.keyword k) = 1 := by
  cases k <;> first | rfl | cases h

/-- An expression begins with a lexeme that its level may begin with. -/
theorem Derives.begins {l : Level} {e : Expr} {w : List Lexeme} (h : Derives (.expr l e) w) :
    ∃ x v, w = x :: v ∧ entry x ≤ l.looseness := by
  generalize hp : Phrase.expr l e = p at h
  induction h generalizing l e with
  | tighter hl _ ih =>
    cases hp
    obtain ⟨x, v, rfl, hx⟩ := ih rfl
    have := Level.looseness_succ hl
    exact ⟨x, v, rfl, by omega⟩
  | joined _ _ _ ih _ =>
    cases hp
    obtain ⟨x, v, rfl, hx⟩ := ih rfl
    exact ⟨x, _, rfl, hx⟩
  | signed hs _ _ => cases hp; exact ⟨_, _, rfl, Nat.le_of_eq (signs_entry hs)⟩
  | member _ _ ih | index _ _ ih _ =>
    cases hp
    obtain ⟨x, v, rfl, hx⟩ := ih rfl
    exact ⟨x, _, rfl, hx⟩
  | word hk => cases hp; exact ⟨_, _, rfl, Nat.le_of_eq (entry_word hk)⟩
  | number | string | name | call | group | list | object => cases hp; exact ⟨_, _, rfl, Nat.le_refl 1⟩
  | _ => cases hp

/-! ## Looser levels -/

theorem Level.looseness_inj {l m : Level} (h : l.looseness = m.looseness) : l = m := by
  cases l <;> cases m <;> first | rfl | cases h

/-- An expression of a level is one of every looser level. -/
theorem Derives.loosen {l m : Level} {e : Expr} {w : List Lexeme} (h : Derives (.expr l e) w)
    (hm : l.looseness ≤ m.looseness) : Derives (.expr m e) w := by
  by_cases heq : l.looseness = m.looseness
  · rwa [← Level.looseness_inj heq]
  · have ha : m ≠ .access := by
      rintro rfl
      have := l.looseness_pos
      have hm : l.looseness ≤ 1 := hm
      have heq : l.looseness ≠ 1 := heq
      omega
    have hsucc := Level.looseness_succ ha
    exact .tighter ha (h.loosen (by omega))
  termination_by m.looseness

end StepFlow.Script
