/-
  StepFlow.Proofs.Script.Layout — a text that is scanned is laid out in lexemes, with blanks,
  comments and inner line feeds between them.

  A layout is a list of stretches that make up the text; those that spell a lexeme give the
  tokens (`Laid`). A lexeme is as long as any that could begin in its place, and is scanned as
  itself when it stands alone (`Fits`). Line feeds stand between lexemes only inside brackets,
  which are counted along the lexemes.

  Proved, by the recursion of the scan:
  (1) `scanFrom_laid`: what is scanned has a layout with its lexemes, and the positions of its
      tokens are counted along the stretches.
-/

import StepFlow.Proofs.Script.Spelling

namespace StepFlow.Script

/-! ## Layouts -/

/-- A part of a text, with the lexeme that it spells if it spells one. -/
structure Stretch where
  source : List Char
  lexeme? : Option Lexeme

namespace Stretch

/-- The text that stretches make up. -/
def text (ss : List Stretch) : List Char := ss.flatMap (·.source)

def lexemes (ss : List Stretch) : List Lexeme := ss.filterMap (·.lexeme?)

end Stretch

/-- The characters are the lexeme that a text begins with, and the longest one. -/
structure Fits (source : List Char) (l : Lexeme) (rest : List Char) : Prop where
  spelled : Spelled source l
  alone : ∃ stop, scan (String.ofList source) = .ok ⟨[⟨l, ⟨1, 1⟩⟩], stop⟩
  longest : ∀ p l', p <+: source ++ rest → Spelled p l' → p.length ≤ source.length

/-- The stretches of a text, from where brackets are that many deep. -/
inductive Laid : Nat → List Stretch → Prop
  | nil {depth : Nat} : Laid depth []
  | blank {depth : Nat} {c : Char} {ss : List Stretch} : c = ' ' ∨ c = '\t' ∨ c = '\r' → Laid depth ss →
      Laid depth (⟨[c], none⟩ :: ss)
  /-- A comment ends just before a line feed, or with the text. -/
  | comment {depth : Nat} {cs : List Char} {ss : List Stretch} : '\n' ∉ cs →
      (∀ c ∈ (Stretch.text ss).head?, c = '\n') → Laid depth ss → Laid depth (⟨'#' :: cs, none⟩ :: ss)
  | feed {depth : Nat} {ss : List Stretch} : 0 < depth → Laid depth ss → Laid depth (⟨['\n'], none⟩ :: ss)
  | lexeme {depth : Nat} {source : List Char} {l : Lexeme} {ss : List Stretch} : Fits source l (Stretch.text ss) →
      Laid (depthAfter depth l) ss → Laid depth (⟨source, some l⟩ :: ss)

/-! ## Positions -/

/-- Where a text goes on after a stretch: in the next line only if that is a line feed. -/
def Stretch.advance (s : Stretch) (p : Position) : Position :=
  if s.source = ['\n'] then ⟨p.line + 1, 1⟩ else ⟨p.line, p.column + s.source.length⟩

/-- Where the lexemes of a text begin, and where it ends. -/
def Stretch.places (p : Position) : List Stretch → List Position
  | [] => [p]
  | s :: ss => (s.lexeme?.map fun _ => p).toList ++ places (s.advance p) ss

/-- Where the tokens stand, and the end. -/
def Tokens.places (ts : Tokens) : List Position := ts.list.map (·.pos) ++ [ts.stop]

/-! ## Pieces -/

section

variable {c : Char} {cs : List Char} {p : Piece} {l : Lexeme} {n : Nat}

theorem numberPiece_lexeme (h : numberPiece c cs = .ok (p, n)) : ∃ l, p = .lexeme l := by
  unfold numberPiece at h
  generalize numeralLength (c :: cs) = r at h
  obtain ⟨k, fractional⟩ := r
  dsimp only at h
  cases hr : readNumeral ((c :: cs).take k) fractional with
  | error t =>
    rw [hr] at h
    cases h
  | ok v =>
    rw [hr] at h
    cases h
    exact ⟨_, rfl⟩

theorem stringPiece_lexeme (h : stringPiece c cs = .ok (p, n)) : ∃ l, p = .lexeme l := by
  unfold stringPiece at h
  cases hb : stringBody c cs with
  | none =>
    rw [hb] at h
    cases h
  | some b =>
    rw [hb] at h
    cases h
    exact ⟨_, rfl⟩

theorem symbolPiece_lexeme (h : symbolPiece c cs = .ok (p, n)) : ∃ l, p = .lexeme l := by
  unfold symbolPiece at h
  cases hs : Symbol.all.find? fun s => s.text.toList.isPrefixOf (c :: cs) with
  | none =>
    rw [hs] at h
    cases h
  | some s =>
    rw [hs] at h
    cases h
    exact ⟨_, rfl⟩

/-- What a piece is that is no lexeme. -/
theorem pieceAt_cases (h : pieceAt c cs = .ok (p, n)) :
    (p = .newline ∧ c = '\n' ∧ n = 0) ∨ (p = .blank ∧ (c = ' ' ∨ c = '\t' ∨ c = '\r') ∧ n = 0) ∨
      (p = .comment ∧ c = '#' ∧ n = (cs.takeWhile (· != '\n')).length) ∨ ∃ l, p = .lexeme l := by
  rw [pieceAt_eq] at h
  by_cases hfeed : (c == '\n') = true
  · rw [if_pos hfeed] at h
    cases h
    exact .inl ⟨rfl, beq_iff_eq.mp hfeed, rfl⟩
  rw [if_neg hfeed] at h
  by_cases hblank : (c == ' ' || c == '\t' || c == '\r') = true
  · rw [if_pos hblank] at h
    cases h
    exact .inr (.inl ⟨rfl, by simpa [or_assoc] using hblank, rfl⟩)
  rw [if_neg hblank] at h
  by_cases hcomment : (c == '#') = true
  · rw [if_pos hcomment] at h
    cases h
    exact .inr (.inr (.inl ⟨rfl, beq_iff_eq.mp hcomment, rfl⟩))
  rw [if_neg hcomment] at h
  refine .inr (.inr (.inr ?_))
  by_cases hdigit : Text.isDigit c = true
  · rw [if_pos hdigit] at h
    exact numberPiece_lexeme h
  rw [if_neg hdigit] at h
  by_cases hword : (Text.isLetter c || c == '_') = true
  · rw [if_pos hword] at h
    cases h
    exact ⟨_, rfl⟩
  rw [if_neg hword] at h
  by_cases hquote : (c == '\'' || c == '"') = true
  · rw [if_pos hquote] at h
    exact stringPiece_lexeme h
  rw [if_neg hquote] at h
  exact symbolPiece_lexeme h

theorem pieceAt_newline (h : pieceAt c cs = .ok (.newline, n)) : c = '\n' ∧ n = 0 := by
  rcases pieceAt_cases h with ⟨-, hc, hn⟩ | ⟨hp, -⟩ | ⟨hp, -⟩ | ⟨l, hp⟩
  · exact ⟨hc, hn⟩
  · cases hp
  · cases hp
  · cases hp

/-- The characters of a lexeme that is taken fit where they stand. -/
theorem pieceAt_fits (h : pieceAt c cs = .ok (.lexeme l, n)) (hlength : (c :: cs).length ≤ lengthLimit) :
    Fits (c :: cs.take n) l (cs.drop n) := by
  obtain ⟨hspelled, hn⟩ := pieceAt_spelled h
  have htake : (c :: cs.take n).length = n + 1 := by
    rw [List.length_cons, List.length_take, Nat.min_eq_left hn]
  rw [List.length_cons] at hlength
  refine ⟨hspelled, hspelled.alone (by omega), fun p l' hp hl' => ?_⟩
  rw [List.cons_append, List.take_append_drop] at hp
  rw [htake]
  exact hl'.within hp h

/-- A line feed of its own is a lexeme, wherever it stands. -/
theorem feed_fits (cs : List Char) : Fits ['\n'] .newline cs := by
  refine ⟨.feed, Spelled.feed.alone (by decide), fun p l hp hl => ?_⟩
  rcases hl.piece with ⟨rfl, -⟩ | ⟨c, u, rfl, hpiece⟩
  · exact Nat.le_refl _
  · obtain ⟨rfl, -⟩ := List.cons_prefix_cons.mp hp
    -- no piece but the line feed begins with one
    cases hpiece

/-- After a comment comes a line feed, or nothing. -/
theorem comment_ends (cs : List Char) : ∀ c ∈ (cs.drop (cs.takeWhile (· != '\n')).length).head?, c = '\n' := by
  intro c hc
  have hsplit := List.takeWhile_append_dropWhile (p := (· != '\n')) (l := cs)
  have hdrop : cs.drop (cs.takeWhile (· != '\n')).length = cs.dropWhile (· != '\n') :=
    (congrArg (List.drop _) hsplit).symm.trans List.drop_left
  have hstops := List.head?_dropWhile_not (· != '\n') cs
  rw [hdrop] at hc
  rw [hc] at hstops
  simpa using hstops

end

/-! ## The scan -/

theorem tokens_places_cons (t : Token) (ts : Tokens) :
    Tokens.places { ts with list := t :: ts.list } = t.pos :: ts.places := rfl

theorem advance_feed (p : Position) (l : Option Lexeme) : Stretch.advance ⟨['\n'], l⟩ p = ⟨p.line + 1, 1⟩ := if_pos rfl

theorem advance_other {c : Char} (hc : c ≠ '\n') (u : List Char) (l : Option Lexeme) (line column : Nat) :
    Stretch.advance ⟨c :: u, l⟩ ⟨line, column⟩ = ⟨line, column + 1 + u.length⟩ := by
  rw [Stretch.advance, if_neg (fun h => hc (List.cons.inj h).1), List.length_cons]
  simp only [Position.mk.injEq, true_and]
  omega

/-- What is scanned has a layout with its lexemes, and its tokens stand where those begin. -/
theorem scanFrom_laid (cs : List Char) {line column depth : Nat} {ts : Tokens} (hlength : cs.length ≤ lengthLimit)
    (h : scanFrom line column depth cs = .ok ts) :
    ∃ ss, Laid depth ss ∧ Stretch.text ss = cs ∧ Stretch.lexemes ss = words ts.list ∧
      Stretch.places ⟨line, column⟩ ss = ts.places := by
  match cs with
  | [] =>
    rw [scanFrom_nil] at h
    cases h
    exact ⟨[], .nil, rfl, rfl, rfl⟩
  | c :: cs =>
    have hdrop : ∀ n, (cs.drop n).length ≤ lengthLimit := fun n => by
      rw [List.length_drop]
      rw [List.length_cons] at hlength
      omega
    rcases scanFrom_ok h with ⟨n, us, hp, hs, rfl⟩ | ⟨l, n, us, hp, hs, rfl⟩ | ⟨p, n, hp, hk, hs⟩
    · obtain ⟨ss, hlaid, htext, hwords, hplaces⟩ := scanFrom_laid (cs.drop n) (hdrop n) hs
      obtain ⟨rfl, rfl⟩ := pieceAt_newline hp
      by_cases hz : depth = 0
      · subst hz
        rw [if_pos rfl]
        refine ⟨⟨['\n'], some .newline⟩ :: ss, .lexeme (feed_fits _) hlaid, congrArg ('\n' :: ·) htext,
          congrArg (Lexeme.newline :: ·) hwords, ?_⟩
        rw [tokens_places_cons, ← hplaces, Stretch.places, advance_feed]
        rfl
      · rw [if_neg hz]
        refine ⟨⟨['\n'], none⟩ :: ss, .feed (Nat.pos_of_ne_zero hz) hlaid, congrArg ('\n' :: ·) htext, hwords, ?_⟩
        rw [← hplaces, Stretch.places, advance_feed]
        rfl
    · obtain ⟨ss, hlaid, htext, hwords, hplaces⟩ := scanFrom_laid (cs.drop n) (hdrop n) hs
      have hfits := pieceAt_fits hp hlength
      have hn := (pieceAt_spelled hp).2
      rw [← htext] at hfits
      have hc : c ≠ '\n' := by
        rintro rfl
        cases hp
      refine ⟨⟨c :: cs.take n, some l⟩ :: ss, .lexeme hfits hlaid, ?_, congrArg (l :: ·) hwords, ?_⟩
      · show c :: cs.take n ++ Stretch.text ss = c :: cs
        rw [htext, List.cons_append, List.take_append_drop]
      · rw [tokens_places_cons, ← hplaces, Stretch.places, advance_other hc, List.length_take, Nat.min_eq_left hn]
        rfl
    · obtain ⟨ss, hlaid, htext, hwords, hplaces⟩ := scanFrom_laid (cs.drop n) (hdrop n) hs
      rcases pieceAt_cases hp with ⟨rfl, -⟩ | ⟨rfl, hc, rfl⟩ | ⟨rfl, rfl, hn⟩ | ⟨l, rfl⟩
      · rcases hk with hk | hk <;> cases hk
      · have hfeed : c ≠ '\n' := by rcases hc with rfl | rfl | rfl <;> decide
        refine ⟨⟨[c], none⟩ :: ss, .blank hc hlaid, congrArg (c :: ·) htext, hwords, ?_⟩
        rw [← hplaces, Stretch.places, advance_other hfeed]
        rfl
      · have hbody : cs.take n = cs.takeWhile (· != '\n') := by rw [hn, take_takeWhile]
        have hlong : (cs.take n).length = n := by rw [hbody, hn]
        refine ⟨⟨'#' :: cs.take n, none⟩ :: ss, .comment ?_ ?_ hlaid, ?_, hwords, ?_⟩
        · rw [hbody]
          intro hmem
          have hne := List.mem_takeWhile_imp (p := (· != '\n')) hmem
          cases hne
        · rw [htext, hn]
          exact comment_ends cs
        · show '#' :: cs.take n ++ Stretch.text ss = '#' :: cs
          rw [htext, List.cons_append, List.take_append_drop]
        · rw [← hplaces, Stretch.places, advance_other (by decide), hlong]
          rfl
      · rcases hk with hk | hk <;> cases hk
  termination_by cs.length
  decreasing_by all_goals simp only [List.length_drop, List.length_cons]; omega

/-- No text that is scanned is too long. -/
theorem scan_length {text : String} {ts : Tokens} (h : scan text = .ok ts) : text.toList.length ≤ lengthLimit := by
  unfold scan at h
  dsimp only at h
  split at h
  · cases h
  · exact Nat.not_lt.mp ‹_›

/-- Scanning loses nothing and takes the longest lexemes: the text is made up of the tokens'
    lexemes and of blanks, comments and inner line feeds between them. -/
theorem scanning_loses_nothing {text : String} {ts : Tokens} (h : scan text = .ok ts) :
    ∃ ss, Laid 0 ss ∧ Stretch.text ss = text.toList ∧ Stretch.lexemes ss = words ts.list := by
  obtain ⟨ss, hlaid, htext, hwords, -⟩ := scanFrom_laid text.toList (scan_length h) (scan_ok h)
  exact ⟨ss, hlaid, htext, hwords⟩

-- the tables of letters and digits are long lists
set_option maxRecDepth 4000 in
/-- A name and a numeral of other scripts, a point that begins no fraction, a line feed inside
    brackets, and a comment at the end. -/
theorem layout_of_a_call :
    let text := "é(٣.e,\n'\\'')\n#x"
    let ts : Tokens :=
      ⟨[⟨.ident "é", ⟨1, 1⟩⟩, ⟨.symbol .openParen, ⟨1, 2⟩⟩, ⟨.number (.int 3), ⟨1, 3⟩⟩, ⟨.symbol .dot, ⟨1, 4⟩⟩,
        ⟨.ident "e", ⟨1, 5⟩⟩, ⟨.symbol .comma, ⟨1, 6⟩⟩, ⟨.string "'", ⟨2, 1⟩⟩, ⟨.symbol .closeParen, ⟨2, 5⟩⟩,
        ⟨.newline, ⟨2, 6⟩⟩], ⟨3, 3⟩⟩
    scan text = .ok ts ∧
      ∃ ss, Laid 0 ss ∧ Stretch.text ss = text.toList ∧ Stretch.lexemes ss = words ts.list := by
  intro text ts
  have hscan : scan text = .ok ts := by cbv
  exact ⟨hscan, scanning_loses_nothing hscan⟩

end StepFlow.Script
