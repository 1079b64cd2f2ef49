/-
  StepFlow.Proofs.Script.Joining — two scripts with a line feed between them are one script.

  The scan carries three things across a line feed: the line, the column and the depth of
  brackets. The first two only say where tokens stand. The third decides whether the line feed
  is a token, and a script that is accepted leaves no bracket open, which is a fact of the
  grammar and none of the scan.

  Proved:
  (1) `Program.balanced`: after a script the depth is what it was before.
  (2) `pieceAt_feed`: no piece of a text looks beyond a line feed that follows the text.
  (3) `scanFrom_feed`: so the tokens of two texts with a line feed between them are those of
      the first, the line feed, and those of the second at other places.
  (4) `Program.join`, `exec_append`: statements add up, and so do their effects up to the
      first that fails.
-/

import StepFlow.Proofs.Script.Acceptance
import StepFlow.Proofs.Script.Atomicity

namespace StepFlow.Script

open Text (isDigit isLetter isAlphanumeric)

/-! ## Brackets -/

/-- The depth of brackets after lexemes. -/
def depthThrough (depth : Nat) (w : List Lexeme) : Nat := w.foldl depthAfter depth

theorem depthThrough_cons (depth : Nat) (x : Lexeme) (w : List Lexeme) :
    depthThrough depth (x :: w) = depthThrough (depthAfter depth x) w := rfl

theorem depthThrough_append (depth : Nat) (u v : List Lexeme) :
    depthThrough depth (u ++ v) = depthThrough (depthThrough depth u) v := List.foldl_append

theorem Joins.flat {l : Level} {x : Lexeme} {f : Expr → Expr → Expr} (h : Joins l x f) (depth : Nat) :
    depthAfter depth x = depth := by
  cases h <;> rfl

theorem Signs.flat {l : Level} {x : Lexeme} {f : Expr → Expr} (h : Signs l x f) (depth : Nat) :
    depthAfter depth x = depth := by
  cases h <;> rfl

theorem Names.flat {x : Lexeme} {n : String} (h : Names x n) (depth : Nat) : depthAfter depth x = depth := by
  cases h <;> rfl

theorem Assigns.flat {x : Lexeme} {op : AssignOp} (h : Assigns x op) (depth : Nat) : depthAfter depth x = depth := by
  cases h <;> rfl

theorem Separates.flat {x : Lexeme} (h : Separates x) (depth : Nat) : depthAfter depth x = depth := by
  cases h <;> rfl

/-- What is between brackets leaves the depth inside as it is; the brackets take it up and down. -/
theorem depthThrough_enclosed {s t : Symbol} (hs : s.opens = true) (ht : t.opens = false ∧ t.closes = true)
    {w : List Lexeme} (hw : ∀ depth, depthThrough depth w = depth) (depth : Nat) :
    depthThrough depth (.symbol s :: (w ++ [.symbol t])) = depth := by
  have hopen : depthAfter depth (.symbol s) = depth + 1 := by simp [depthAfter, hs]
  have hclose : depthAfter (depth + 1) (.symbol t) = depth := by simp [depthAfter, ht.1, ht.2]
  rw [depthThrough_cons, hopen, depthThrough_append, hw (depth + 1), depthThrough_cons, hclose]
  rfl

/-- Every phrase closes the brackets that it opens, and no others. -/
theorem Derives.balanced {p : Phrase} {w : List Lexeme} (h : Derives p w) :
    ∀ depth, depthThrough depth w = depth := by
  induction h with
  | tighter _ _ ih | lastItem _ ih | exprKey _ _ ih => exact ih
  | joined hx _ _ iha ihb =>
    intro depth
    rw [depthThrough_append, iha, depthThrough_cons, hx.flat, ihb]
  | signed hx _ ih =>
    intro depth
    rw [depthThrough_cons, hx.flat, ih]
  | member _ hx ih =>
    intro depth
    rw [depthThrough_append, ih, depthThrough_cons, depthThrough_cons, hx.flat]
    rfl
  | index _ _ iha ihb =>
    intro depth
    rw [depthThrough_append, iha]
    exact depthThrough_enclosed rfl ⟨rfl, rfl⟩ ihb depth
  | call n _ ih =>
    intro depth
    rw [depthThrough_cons]
    exact depthThrough_enclosed rfl ⟨rfl, rfl⟩ ih depth
  | group _ ih | list _ ih | object _ ih => exact depthThrough_enclosed rfl ⟨rfl, rfl⟩ ih
  | number | string | word | name | bareKey | noItems | noPairs => intro depth; rfl
  | item _ _ iha ihb | lastPair _ _ iha ihb =>
    intro depth
    rw [depthThrough_append, iha, depthThrough_cons]
    exact ihb depth
  | pair _ _ _ ihk ihe ihp =>
    intro depth
    rw [depthThrough_append, ihk, depthThrough_cons, depthThrough_append]
    rw [ihe, depthThrough_cons]
    exact ihp depth

theorem Sentence.balanced {w : List Lexeme} {s : Statement} (h : Sentence w s) (depth : Nat) :
    depthThrough depth w = depth := by
  cases h with
  | expr he => exact he.balanced depth
  | assign ht hx he => rw [depthThrough_append, ht.balanced, depthThrough_cons, hx.flat, he.balanced]

theorem Program.balanced {w : List Lexeme} {ss : List Statement} (h : Program w ss) (depth : Nat) :
    depthThrough depth w = depth := by
  induction h with
  | nil => rfl
  | separator hx _ ih => rw [depthThrough_cons, hx.flat, ih]
  | last hs => exact hs.balanced depth
  | statement hs hx _ ih => rw [depthThrough_append, hs.balanced, depthThrough_cons, hx.flat, ih]

/-! ## Pieces before a line feed -/

theorem takeWhile_feed {p : Char → Bool} (hp : p '\n' = false) (cs more : List Char) :
    (cs ++ '\n' :: more).takeWhile p = cs.takeWhile p := by
  induction cs with
  | nil => simp [hp]
  | cons c cs ih =>
    rw [List.cons_append, List.takeWhile_cons, List.takeWhile_cons, ih]

theorem fractionLength_feed (cs more : List Char) : fractionLength (cs ++ '\n' :: more) = fractionLength cs := by
  match cs with
  | [] => rfl
  | c :: cs =>
    by_cases hc : c = '.'
    · subst hc
      simp only [List.cons_append, fractionLength, takeWhile_feed (p := isDigit) rfl]
    · simp [fractionLength, hc]

theorem fractionLength_le (cs : List Char) : fractionLength cs ≤ cs.length := by
  unfold fractionLength
  split
  · rename_i rest
    have := (List.takeWhile_sublist isDigit (l := rest)).length_le
    simp only [List.length_cons]
    split <;> omega
  · omega

/-- The characters of the sign of an exponent. -/
def signLength : List Char → Nat
  | '+' :: _ | '-' :: _ => 1
  | _ => 0

theorem exponentLength_cons (c : Char) (cs : List Char) :
    exponentLength (c :: cs) =
      if c == 'e' || c == 'E' then
        let n := ((cs.drop (signLength cs)).takeWhile isDigit).length
        if n = 0 then 0 else 1 + signLength cs + n
      else 0 := rfl

theorem signLength_le (cs : List Char) : signLength cs ≤ cs.length := by
  unfold signLength
  split <;> simp

theorem signLength_feed (cs more : List Char) : signLength (cs ++ '\n' :: more) = signLength cs := by
  match cs with
  | [] => rfl
  | c :: cs =>
    by_cases hp : c = '+'
    · subst hp; rfl
    by_cases hm : c = '-'
    · subst hm; rfl
    simp [signLength, hp, hm]

theorem exponentLength_feed (cs more : List Char) : exponentLength (cs ++ '\n' :: more) = exponentLength cs := by
  cases cs with
  | nil => rfl
  | cons c cs =>
    have hdrop : (cs ++ '\n' :: more).drop (signLength cs) = cs.drop (signLength cs) ++ '\n' :: more :=
      List.drop_append_of_le_length (signLength_le cs)
    rw [List.cons_append, exponentLength_cons, exponentLength_cons, signLength_feed, hdrop,
      takeWhile_feed (p := isDigit) rfl]

theorem exponentLength_le (cs : List Char) : exponentLength cs ≤ cs.length := by
  cases cs with
  | nil => simp [exponentLength]
  | cons c cs =>
    rw [exponentLength_cons, List.length_cons]
    by_cases he : (c == 'e' || c == 'E') = true
    · have hdigits := (List.takeWhile_sublist isDigit (l := cs.drop (signLength cs))).length_le
      have hsign := signLength_le cs
      rw [List.length_drop] at hdigits
      rw [if_pos he]
      dsimp only
      split <;> omega
    · rw [if_neg he]
      omega

theorem wholeLength_le (cs : List Char) : (cs.takeWhile isDigit).length ≤ cs.length :=
  (List.takeWhile_sublist isDigit).length_le

theorem fractionEnd_le (cs : List Char) :
    (cs.takeWhile isDigit).length + fractionLength (cs.drop (cs.takeWhile isDigit).length) ≤ cs.length := by
  have hfraction := fractionLength_le (cs.drop (cs.takeWhile isDigit).length)
  have hwhole := wholeLength_le cs
  rw [List.length_drop] at hfraction
  omega

theorem numeralLength_feed (cs more : List Char) : numeralLength (cs ++ '\n' :: more) = numeralLength cs := by
  unfold numeralLength
  rw [takeWhile_feed (p := isDigit) rfl]
  dsimp only
  rw [List.drop_append_of_le_length (wholeLength_le cs), fractionLength_feed,
    List.drop_append_of_le_length (fractionEnd_le cs), exponentLength_feed]

theorem numeralLength_le (cs : List Char) : (numeralLength cs).1 ≤ cs.length := by
  have hend := fractionEnd_le cs
  unfold numeralLength
  dsimp only
  generalize (cs.takeWhile isDigit).length + fractionLength (cs.drop (cs.takeWhile isDigit).length) = n at hend ⊢
  have hexponent := exponentLength_le (cs.drop n)
  rw [List.length_drop] at hexponent
  omega

theorem stringBody_backslash (q c : Char) (cs : List Char) :
    stringBody q ('\\' :: c :: cs) = (stringBody q cs).map fun b => (escaped c ++ b.1, b.2 + 2) := by
  rw [stringBody]

theorem stringBody_other {c : Char} (hn : c ≠ '\n') (hb : c ≠ '\\') (q : Char) (cs : List Char) :
    stringBody q (c :: cs) =
      if c == q then some ([], 1) else (stringBody q cs).map fun b => (c :: b.1, b.2 + 1) := by
  rw [stringBody]
  · exact hn
  · rintro rfl -
    exact hb rfl
  · rintro _ _ rfl -
    exact hb rfl

/-- A string that is closed is closed whatever follows. -/
theorem stringBody_append {q : Char} {cs body : List Char} {n : Nat} (h : stringBody q cs = some (body, n))
    (more : List Char) : stringBody q (cs ++ more) = some (body, n) ∧ n ≤ cs.length := by
  induction cs using stringBody.induct q generalizing body n with
  | case1 => cases h
  | case2 cs => cases h
  | case3 => cases h
  | case4 c cs ih =>
    rw [stringBody_backslash] at h
    obtain ⟨⟨body', n'⟩, hb, h⟩ := Option.map_eq_some_iff.mp h
    cases h
    obtain ⟨hclosed, hle⟩ := ih hb
    refine ⟨?_, by simp only [List.length_cons]; omega⟩
    rw [List.cons_append, List.cons_append, stringBody_backslash, hclosed]
    rfl
  | case5 c cs hn hb hb' hq =>
    have hslash : c ≠ '\\' := by
      intro hc
      cases cs with
      | nil => exact hb hc rfl
      | cons d cs => exact hb' d cs hc rfl
    rw [stringBody_other hn hslash, if_pos hq] at h
    cases h
    refine ⟨?_, by simp⟩
    rw [List.cons_append, stringBody_other hn hslash, if_pos hq]
  | case6 c cs hn hb hb' hq ih =>
    have hslash : c ≠ '\\' := by
      intro hc
      cases cs with
      | nil => exact hb hc rfl
      | cons d cs => exact hb' d cs hc rfl
    rw [stringBody_other hn hslash, if_neg hq] at h
    obtain ⟨⟨body', n'⟩, hrest, h⟩ := Option.map_eq_some_iff.mp h
    cases h
    obtain ⟨hclosed, hle⟩ := ih hrest
    refine ⟨?_, by simp only [List.length_cons]; omega⟩
    rw [List.cons_append, stringBody_other hn hslash, if_neg hq, hclosed]
    rfl

/-- A text without line feeds stands at the beginning of another one exactly if it does so up to the first line feed. -/
theorem isPrefixOf_feed {u : List Char} (hu : '\n' ∉ u) (cs more : List Char) :
    u.isPrefixOf (cs ++ '\n' :: more) = u.isPrefixOf cs := by
  induction u generalizing cs with
  | nil => simp
  | cons c u ih =>
    rw [List.mem_cons, not_or] at hu
    obtain ⟨hc, hu⟩ := hu
    cases cs with
    | nil =>
      have hne : (c == '\n') = false := beq_eq_false_iff_ne.mpr (Ne.symm hc)
      simp [List.isPrefixOf, hne]
    | cons d cs =>
      rw [List.cons_append]
      simp only [List.isPrefixOf, ih hu]

theorem Symbol.text_feed (s : Symbol) : '\n' ∉ s.text.toList := by cases s <;> decide

theorem symbol_feed (cs more : List Char) :
    (Symbol.all.find? fun s => s.text.toList.isPrefixOf (cs ++ '\n' :: more)) =
      Symbol.all.find? fun s => s.text.toList.isPrefixOf cs := by
  congr 1
  funext s
  exact isPrefixOf_feed s.text_feed cs more

/-- The piece that begins with a digit. -/
def numberPiece (c : Char) (cs : List Char) : Except ScanError (Piece × Nat) :=
  let (n, fractional) := numeralLength (c :: cs)
  match readNumeral ((c :: cs).take n) fractional with
  | .ok v => .ok (.lexeme (.number v), n - 1)
  | .error t => .error (.trouble t)

/-- The piece that begins with a quote. -/
def stringPiece (c : Char) (cs : List Char) : Except ScanError (Piece × Nat) :=
  match stringBody c cs with
  | some (body, n) => .ok (.lexeme (.string (String.ofList body)), n)
  | none => .error (.bad .unterminatedString)

def symbolPiece (c : Char) (cs : List Char) : Except ScanError (Piece × Nat) :=
  match Symbol.all.find? fun s => s.text.toList.isPrefixOf (c :: cs) with
  | some s => .ok (.lexeme (.symbol s), s.text.length - 1)
  | none => .error (.bad (.unexpectedCharacter c))

theorem pieceAt_eq (c : Char) (cs : List Char) :
    pieceAt c cs =
      if c == '\n' then .ok (.newline, 0)
      else if c == ' ' || c == '\t' || c == '\r' then .ok (.blank, 0)
      else if c == '#' then .ok (.comment, (cs.takeWhile (· != '\n')).length)
      else if isDigit c then numberPiece c cs
      else if isLetter c || c == '_' then
        .ok (.lexeme (wordLexeme (String.ofList (c :: cs.takeWhile fun d => isAlphanumeric d || d == '_'))),
          (cs.takeWhile fun d => isAlphanumeric d || d == '_').length)
      else if c == '\'' || c == '"' then stringPiece c cs
      else symbolPiece c cs := rfl

section

variable {c : Char} {cs : List Char} {p : Piece} {n : Nat}

theorem numberPiece_feed (h : numberPiece c cs = .ok (p, n)) (more : List Char) :
    numberPiece c (cs ++ '\n' :: more) = .ok (p, n) ∧ n ≤ cs.length := by
  have hle := numeralLength_le (c :: cs)
  have hlength := numeralLength_feed (c :: cs) more
  rw [List.cons_append] at hlength
  unfold numberPiece at h ⊢
  rw [hlength]
  generalize numeralLength (c :: cs) = r at h hle ⊢
  obtain ⟨k, fractional⟩ := r
  have htake : (c :: (cs ++ '\n' :: more)).take k = (c :: cs).take k := by
    rw [← List.cons_append, List.take_append_of_le_length hle]
  dsimp only at h hle ⊢
  rw [htake]
  cases hr : readNumeral ((c :: cs).take k) fractional with
  | error t =>
    rw [hr] at h
    cases h
  | ok v =>
    rw [hr] at h
    cases h
    rw [List.length_cons] at hle
    exact ⟨rfl, by omega⟩

theorem stringPiece_feed (h : stringPiece c cs = .ok (p, n)) (more : List Char) :
    stringPiece c (cs ++ '\n' :: more) = .ok (p, n) ∧ n ≤ cs.length := by
  unfold stringPiece at h ⊢
  cases hb : stringBody c cs with
  | none =>
    rw [hb] at h
    cases h
  | some r =>
    obtain ⟨body, k⟩ := r
    rw [hb] at h
    cases h
    obtain ⟨hclosed, hle⟩ := stringBody_append hb ('\n' :: more)
    rw [hclosed]
    exact ⟨rfl, hle⟩

theorem symbolPiece_feed (h : symbolPiece c cs = .ok (p, n)) (more : List Char) :
    symbolPiece c (cs ++ '\n' :: more) = .ok (p, n) ∧ n ≤ cs.length := by
  unfold symbolPiece at h ⊢
  rw [← List.cons_append, symbol_feed]
  cases hs : Symbol.all.find? fun s => s.text.toList.isPrefixOf (c :: cs) with
  | none =>
    rw [hs] at h
    cases h
  | some s =>
    rw [hs] at h
    cases h
    have hstarts := List.find?_some hs
    have hle := (List.isPrefixOf_iff_prefix.mp hstarts).length_le
    rw [String.length_toList, List.length_cons] at hle
    exact ⟨rfl, by omega⟩

/-- No piece looks beyond a line feed. -/
theorem pieceAt_feed (h : pieceAt c cs = .ok (p, n)) (more : List Char) :
    pieceAt c (cs ++ '\n' :: more) = .ok (p, n) ∧ n ≤ cs.length := by
  rw [pieceAt_eq] at h ⊢
  by_cases hfeed : (c == '\n') = true
  · rw [if_pos hfeed] at h ⊢
    cases h
    exact ⟨rfl, Nat.zero_le _⟩
  rw [if_neg hfeed] at h ⊢
  by_cases hblank : (c == ' ' || c == '\t' || c == '\r') = true
  · rw [if_pos hblank] at h ⊢
    cases h
    exact ⟨rfl, Nat.zero_le _⟩
  rw [if_neg hblank] at h ⊢
  by_cases hcomment : (c == '#') = true
  · rw [if_pos hcomment] at h ⊢
    cases h
    rw [takeWhile_feed (p := (· != '\n')) rfl]
    exact ⟨rfl, (List.takeWhile_sublist _).length_le⟩
  rw [if_neg hcomment] at h ⊢
  by_cases hdigit : isDigit c = true
  · rw [if_pos hdigit] at h ⊢
    exact numberPiece_feed h more
  rw [if_neg hdigit] at h ⊢
  by_cases hword : (isLetter c || c == '_') = true
  · rw [if_pos hword] at h ⊢
    cases h
    rw [takeWhile_feed (p := fun d => isAlphanumeric d || d == '_') rfl]
    exact ⟨rfl, (List.takeWhile_sublist _).length_le⟩
  rw [if_neg hword] at h ⊢
  by_cases hquote : (c == '\'' || c == '"') = true
  · rw [if_pos hquote] at h ⊢
    exact stringPiece_feed h more
  rw [if_neg hquote] at h ⊢
  exact symbolPiece_feed h more

end

/-! ## Texts with a line feed between them -/

/-- The tokens of two texts with a line feed between them. -/
def Tokens.join (ts us : Tokens) : Tokens := ⟨ts.list ++ ⟨.newline, ts.stop⟩ :: us.list, us.stop⟩

section

variable {line column depth n : Nat} {c : Char} {cs : List Char} {ts : Tokens}

theorem scanFrom_newline (hp : pieceAt c cs = .ok (.newline, n)) :
    scanFrom line column depth (c :: cs) =
      (scanFrom (line + 1) 1 depth (cs.drop n)).map fun ts =>
        if depth = 0 then { ts with list := ⟨.newline, ⟨line, column⟩⟩ :: ts.list } else ts := by
  rw [scanFrom, hp]

theorem scanFrom_lexeme {l : Lexeme} (hp : pieceAt c cs = .ok (.lexeme l, n)) :
    scanFrom line column depth (c :: cs) =
      (scanFrom line (column + 1 + n) (depthAfter depth l) (cs.drop n)).map fun ts =>
        { ts with list := ⟨l, ⟨line, column⟩⟩ :: ts.list } := by
  rw [scanFrom, hp]

theorem scanFrom_skipped {p : Piece} (hp : pieceAt c cs = .ok (p, n)) (hk : p = .blank ∨ p = .comment) :
    scanFrom line column depth (c :: cs) = scanFrom line (column + 1 + n) depth (cs.drop n) := by
  rw [scanFrom, hp]
  rcases hk with rfl | rfl <;> rfl

/-- What a scan that succeeds begins with. -/
theorem scanFrom_ok (h : scanFrom line column depth (c :: cs) = .ok ts) :
    (∃ n us, pieceAt c cs = .ok (.newline, n) ∧ scanFrom (line + 1) 1 depth (cs.drop n) = .ok us ∧
      ts = if depth = 0 then { us with list := ⟨.newline, ⟨line, column⟩⟩ :: us.list } else us) ∨
    (∃ l n us, pieceAt c cs = .ok (.lexeme l, n) ∧
      scanFrom line (column + 1 + n) (depthAfter depth l) (cs.drop n) = .ok us ∧
      ts = { us with list := ⟨l, ⟨line, column⟩⟩ :: us.list }) ∨
    (∃ p n, pieceAt c cs = .ok (p, n) ∧ (p = .blank ∨ p = .comment) ∧
      scanFrom line (column + 1 + n) depth (cs.drop n) = .ok ts) := by
  cases hp : pieceAt c cs with
  | error e =>
    rw [scanFrom, hp] at h
    cases e <;> cases h
  | ok r =>
    obtain ⟨p, n⟩ := r
    cases p with
    | newline =>
      rw [scanFrom_newline hp] at h
      cases hs : scanFrom (line + 1) 1 depth (cs.drop n) with
      | error f =>
        rw [hs] at h
        cases h
      | ok us =>
        rw [hs] at h
        cases h
        exact .inl ⟨n, us, rfl, hs, rfl⟩
    | lexeme l =>
      rw [scanFrom_lexeme hp] at h
      cases hs : scanFrom line (column + 1 + n) (depthAfter depth l) (cs.drop n) with
      | error f =>
        rw [hs] at h
        cases h
      | ok us =>
        rw [hs] at h
        cases h
        exact .inr (.inl ⟨l, n, us, rfl, hs, rfl⟩)
    | blank =>
      rw [scanFrom_skipped hp (.inl rfl)] at h
      exact .inr (.inr ⟨.blank, n, rfl, .inl rfl, h⟩)
    | comment =>
      rw [scanFrom_skipped hp (.inr rfl)] at h
      exact .inr (.inr ⟨.comment, n, rfl, .inr rfl, h⟩)

/-- A scan goes on after a line feed as it began, if no bracket is open there. -/
theorem scanFrom_feed (cs : List Char) {line column depth : Nat} {ts : Tokens}
    (h : scanFrom line column depth cs = .ok ts) (hd : depthThrough depth (words ts.list) = 0) (more : List Char) :
    scanFrom line column depth (cs ++ '\n' :: more) = (scanFrom (ts.stop.line + 1) 1 0 more).map ts.join := by
  match cs with
  | [] =>
    rw [scanFrom] at h
    cases h
    obtain rfl : depth = 0 := hd
    have hp : pieceAt '\n' more = .ok (.newline, 0) := rfl
    rw [List.nil_append, scanFrom_newline hp]
    rfl
  | c :: cs =>
    rw [List.cons_append]
    rcases scanFrom_ok h with ⟨n, us, hp, hs, rfl⟩ | ⟨l, n, us, hp, hs, rfl⟩ | ⟨p, n, hp, hk, hs⟩
    · obtain ⟨hfeed, hle⟩ := pieceAt_feed hp more
      have hdepth : depthThrough depth (words us.list) = 0 := by
        by_cases hz : depth = 0
        · rw [if_pos hz] at hd
          exact hd
        · rw [if_neg hz] at hd
          exact hd
      have ih := scanFrom_feed (cs.drop n) hs hdepth more
      rw [scanFrom_newline hfeed, List.drop_append_of_le_length hle, ih]
      by_cases hz : depth = 0
      · simp only [if_pos hz]
        cases scanFrom (us.stop.line + 1) 1 0 more <;> rfl
      · simp only [if_neg hz]
        cases scanFrom (us.stop.line + 1) 1 0 more <;> rfl
    · obtain ⟨hfeed, hle⟩ := pieceAt_feed hp more
      have ih := scanFrom_feed (cs.drop n) hs hd more
      rw [scanFrom_lexeme hfeed, List.drop_append_of_le_length hle, ih]
      cases scanFrom (us.stop.line + 1) 1 0 more <;> rfl
    · obtain ⟨hfeed, hle⟩ := pieceAt_feed hp more
      have ih := scanFrom_feed (cs.drop n) hs hd more
      rw [scanFrom_skipped hfeed hk, List.drop_append_of_le_length hle, ih]
  termination_by cs.length
  decreasing_by all_goals simp only [List.length_drop, List.length_cons]; omega

/-- Where a text stands makes no difference to its lexemes. -/
theorem scanFrom_moved (cs : List Char) {line column depth : Nat} {ts : Tokens}
    (h : scanFrom line column depth cs = .ok ts) (line' column' : Nat) :
    ∃ us, scanFrom line' column' depth cs = .ok us ∧ words us.list = words ts.list := by
  match cs with
  | [] =>
    rw [scanFrom] at h
    cases h
    exact ⟨⟨[], ⟨line', column'⟩⟩, by rw [scanFrom], rfl⟩
  | c :: cs =>
    rcases scanFrom_ok h with ⟨n, us, hp, hs, rfl⟩ | ⟨l, n, us, hp, hs, rfl⟩ | ⟨p, n, hp, hk, hs⟩
    · obtain ⟨vs, hvs, hw⟩ := scanFrom_moved (cs.drop n) hs (line' + 1) 1
      refine ⟨_, by rw [scanFrom_newline hp, hvs]; rfl, ?_⟩
      by_cases hz : depth = 0
      · simp only [if_pos hz, words_cons, hw]
      · simp only [if_neg hz, hw]
    · obtain ⟨vs, hvs, hw⟩ := scanFrom_moved (cs.drop n) hs line' (column' + 1 + n)
      refine ⟨_, by rw [scanFrom_lexeme hp, hvs]; rfl, ?_⟩
      simp only [words_cons, hw]
    · rw [scanFrom_skipped hp hk]
      exact scanFrom_moved (cs.drop n) hs line' (column' + 1 + n)
  termination_by cs.length
  decreasing_by all_goals simp only [List.length_drop, List.length_cons]; omega

end

theorem scan_ok {text : String} {ts : Tokens} (h : scan text = .ok ts) : scanFrom 1 1 0 text.toList = .ok ts := by
  unfold scan at h
  dsimp only at h
  split at h
  · cases h
  · exact h

/-- The lexemes of two texts with a line feed between them. -/
theorem scan_joined {s t : String} {ts us : Tokens} (hs : scan s = .ok ts) (ht : scan t = .ok us)
    (hd : depthThrough 0 (words ts.list) = 0) (hl : s.length + 1 + t.length ≤ lengthLimit) :
    ∃ vs, scan (s ++ "\n" ++ t) = .ok vs ∧ words vs.list = words ts.list ++ .newline :: words us.list := by
  obtain ⟨ws, hws, hw⟩ := scanFrom_moved t.toList (scan_ok ht) (ts.stop.line + 1) 1
  have hjoined := scanFrom_feed s.toList (scan_ok hs) hd t.toList
  rw [hws] at hjoined
  have htext : (s ++ "\n" ++ t).toList = s.toList ++ '\n' :: t.toList := by
    rw [String.toList_append, String.toList_append, List.append_assoc]
    rfl
  have hshort : ¬ lengthLimit < (s.toList ++ '\n' :: t.toList).length := by
    rw [List.length_append, List.length_cons, String.length_toList, String.length_toList]
    omega
  refine ⟨ts.join ws, ?_, ?_⟩
  · unfold scan
    rw [htext]
    simp only [if_neg hshort, hjoined]
    rfl
  · rw [Tokens.join, words_append, words_cons, hw]

/-! ## Statements in a row -/

theorem Program.join {u v : List Lexeme} {ss tt : List Statement} (hu : Program u ss) (hv : Program v tt) :
    Program (u ++ .newline :: v) (ss ++ tt) := by
  induction hu with
  | nil => exact .separator .newline hv
  | separator hx _ ih => exact .separator hx ih
  | last hs => exact .statement hs .newline hv
  | statement hs hx _ ih =>
    rw [List.append_assoc, List.cons_append]
    exact .statement hs hx ih

theorem exec_append (readonly : List String) (ss tt : List Statement) (m : Memory) :
    (exec readonly (ss ++ tt)).run m =
      match (exec readonly ss).run m with
      | (.ok (), n) => (exec readonly tt).run n
      | (.error f, n) => (.error f, n) := by
  induction ss generalizing m with
  | nil => rfl
  | cons s ss ih =>
    rw [List.cons_append, exec, exec, Exec.bind_run, Exec.bind_run]
    cases (execStatement readonly s).run m with
    | mk r n =>
      cases r with
      | error f => rfl
      | ok u => exact ih n

theorem execute_ok {text : String} {ss : List Statement} (h : parseScript text = .ok ss) (readonly : List String)
    (m : Memory) : execute text readonly m = (exec readonly ss).run m := by
  unfold execute
  rw [h]

/-- A script that is accepted is a program by its lexemes. -/
theorem parseScript_program {text : String} {ss : List Statement} (h : parseScript text = .ok ss) :
    ∃ ts, scan text = .ok ts ∧ Program (words ts.list) ss := by
  obtain ⟨ts, hscan, -⟩ := parseTokens_ok.mp h
  exact ⟨ts, hscan, (parseScript_ok hscan).mp h⟩

/-- Two scripts with a line feed between them are read as the statements of the first and then
    those of the second, if they are not too long together. So running them together comes to
    what it does to run the first and then, unless that fails, the second. -/
theorem scripts_join {s t : String} {ss tt : List Statement} (hs : parseScript s = .ok ss)
    (ht : parseScript t = .ok tt) (hl : s.length + 1 + t.length ≤ lengthLimit) :
    parseScript (s ++ "\n" ++ t) = .ok (ss ++ tt) ∧
    ∀ readonly m, execute (s ++ "\n" ++ t) readonly m =
      match execute s readonly m with
      | (.ok (), n) => execute t readonly n
      | (.error f, n) => (.error f, n) := by
  obtain ⟨ts, hts, hps⟩ := parseScript_program hs
  obtain ⟨us, hus, hpt⟩ := parseScript_program ht
  obtain ⟨vs, hvs, hw⟩ := scan_joined hts hus (hps.balanced 0) hl
  have hjoined : parseScript (s ++ "\n" ++ t) = .ok (ss ++ tt) := by
    refine (parseScript_ok hvs).mpr ?_
    rw [hw]
    exact hps.join hpt
  refine ⟨hjoined, fun readonly m => ?_⟩
  rw [execute_ok hjoined, execute_ok hs, exec_append]
  cases (exec readonly ss).run m with
  | mk r n =>
    cases r with
    | ok u => exact (execute_ok ht readonly n).symm
    | error f => rfl

/-- A comment of the first script ends before the second one. -/
theorem joined_after_a_comment :
    let ss : List Statement := [.assign (.name "x") .set (.list [.literal (.int 1)])]
    let tt : List Statement := [.assign (.index (.name "x") (.literal (.int 2))) .set (.literal (.int 0))]
    parseScript "x = [1] # (" = .ok ss ∧ parseScript "x[2] = 0" = .ok tt ∧
    parseScript "x = [1] # (\nx[2] = 0" = .ok (ss ++ tt) ∧
    ∀ readonly m, execute "x = [1] # (\nx[2] = 0" readonly m =
      match execute "x = [1] # (" readonly m with
      | (.ok (), n) => execute "x[2] = 0" readonly n
      | (.error f, n) => (.error f, n) := by
  intro ss tt
  have hs : parseScript "x = [1] # (" = .ok ss := by cbv
  have ht : parseScript "x[2] = 0" = .ok tt := by cbv
  have htext : "x = [1] # (" ++ "\n" ++ "x[2] = 0" = "x = [1] # (\nx[2] = 0" := by cbv
  have hjoined := scripts_join hs ht (by decide)
  rw [htext] at hjoined
  exact ⟨hs, ht, hjoined⟩

end StepFlow.Script
