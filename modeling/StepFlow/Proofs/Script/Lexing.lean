/-
  StepFlow.Proofs.Script.Lexing — how the texts of names, numbers, strings and signs are cut
  into lexemes.

  `Scans cs ws` says that `cs` is cut into `ws` whatever stands before it, so the facts
  compose from the end of a text to its beginning: the lemma of a lexeme takes the rest of the
  text and what that is cut into. A word, a number or a sign ends where a character follows
  that goes on with none of them (`Boundary`); after a number, a point must not begin a
  fraction.
-/

import StepFlow.Proofs.Number.Reading
import StepFlow.Proofs.Script.Grammar
import StepFlow.Proofs.Script.Rendering
import StepFlow.Proofs.Text.Spans

namespace StepFlow.Script

open Text (isDigit isLetter isAlphanumeric isLetter_not_isDigit)

/-- Wherever the text begins, it is cut into these lexemes. -/
def Scans (cs : List Char) (ws : List Lexeme) : Prop :=
  ∀ line column depth, ∃ ts, scanFrom line column depth cs = .ok ts ∧ words ts.list = ws

/-- The text before `rest` is one lexeme. -/
def Lexes (cs : List Char) (x : Lexeme) (rest : List Char) : Prop :=
  ∃ c u, cs = c :: u ∧ pieceAt c (u ++ rest) = .ok (.lexeme x, u.length)

theorem scans_nil : Scans [] [] := fun line column _ => ⟨⟨[], ⟨line, column⟩⟩, by rw [scanFrom], rfl⟩

theorem scans_blank {cs : List Char} {ws : List Lexeme} (h : Scans cs ws) : Scans (' ' :: cs) ws := by
  intro line column depth
  obtain ⟨ts, hts, hw⟩ := h line (column + 1 + 0) depth
  have hp : pieceAt ' ' cs = .ok (.blank, 0) := rfl
  refine ⟨ts, ?_, hw⟩
  rw [scanFrom, hp]
  exact hts

theorem Lexes.scans {cs rest : List Char} {x : Lexeme} {ws : List Lexeme} (h : Lexes cs x rest)
    (hr : Scans rest ws) : Scans (cs ++ rest) (x :: ws) := by
  obtain ⟨c, u, rfl, hp⟩ := h
  intro line column depth
  obtain ⟨ts, hts, hw⟩ := hr line (column + 1 + u.length) (depthAfter depth x)
  refine ⟨{ ts with list := ⟨x, ⟨line, column⟩⟩ :: ts.list }, ?_, by rw [words_cons, hw]⟩
  rw [List.cons_append, scanFrom, hp]
  simp only [List.drop_left, hts]
  rfl

/-! ## Where a lexeme ends -/

structure Boundary (rest : List Char) : Prop where
  ends : ∀ c, rest.head? = some c → isWordChar c = false ∧ isDigit c = false ∧ c ≠ '='
  whole : fractionLength rest = 0

theorem boundary_nil : Boundary [] := ⟨by simp, rfl⟩

/-- A character other than a point ends whatever it goes on with in no way. -/
theorem boundary_cons {c : Char} (rest : List Char)
    (h : (isWordChar c = false ∧ isDigit c = false ∧ c ≠ '=') ∧ c ≠ '.') : Boundary (c :: rest) := by
  refine ⟨?_, ?_⟩
  · intro d h
    cases h
    exact h.1
  · unfold fractionLength
    split
    · rename_i heq
      cases heq
      exact absurd rfl h.2
    · rfl

theorem Boundary.head {rest : List Char} (h : Boundary rest) : rest.head? ≠ some '=' :=
  fun he => (h.ends '=' he).2.2 rfl

theorem Boundary.takeWhile {p : Char → Bool} {u rest : List Char} (h : Boundary rest) (hu : ∀ c ∈ u, p c = true)
    (hp : ∀ c, p c = true → isWordChar c = true ∨ isDigit c = true) : (u ++ rest).takeWhile p = u := by
  rw [List.takeWhile_append_of_pos hu]
  cases rest with
  | nil => simp
  | cons c rest =>
    obtain ⟨hw, hd, -⟩ := h.ends c rfl
    have hc : ¬ p c = true := by
      intro hc
      rcases hp c hc with h | h
      · rw [hw] at h; cases h
      · rw [hd] at h; cases h
    rw [List.takeWhile_cons_of_neg hc, List.append_nil]

theorem Boundary.exponentLength {rest : List Char} (h : Boundary rest) : exponentLength rest = 0 := by
  cases rest with
  | nil => rfl
  | cons c rest =>
    obtain ⟨hw, -⟩ := h.ends c rfl
    have he : ¬ (c == 'e' || c == 'E') = true := by
      intro he
      rcases Bool.or_eq_true_iff.mp he with he | he <;> rw [beq_iff_eq.mp he] at hw <;> revert hw <;> decide
    unfold Script.exponentLength
    exact if_neg he

/-- Before a boundary the text is cut into these lexemes. -/
def Cuts (cs : List Char) (ws : List Lexeme) : Prop :=
  ∀ (rest : List Char) (vs : List Lexeme), Boundary rest → Scans rest vs → Scans (cs ++ rest) (ws ++ vs)

theorem cuts_nil : Cuts [] [] := fun _ _ _ hr => hr

theorem cuts_lexeme {cs : List Char} {x : Lexeme} (h : ∀ {rest}, Boundary rest → Lexes cs x rest) : Cuts cs [x] :=
  fun _ _ hb hr => (h hb).scans hr

theorem Cuts.append {u v : List Char} {wu wv : List Lexeme} (hu : Cuts u wu) (hv : Cuts v wv)
    (hb : ∀ {rest}, Boundary rest → Boundary (v ++ rest)) : Cuts (u ++ v) (wu ++ wv) := by
  intro rest vs hr hs
  rw [List.append_assoc, List.append_assoc]
  exact hu _ _ (hb hr) (hv _ _ hr hs)

/-- A sign of one character that begins no longer one. -/
theorem Cuts.mark {c : Char} {s : Symbol} {cs : List Char} {ws : List Lexeme}
    (hc : ∀ rest, pieceAt c rest = .ok (.lexeme (.symbol s), 0)) (h : Cuts cs ws) :
    Cuts (c :: cs) (.symbol s :: ws) := by
  intro rest vs hr hs
  have hl : Lexes [c] (.symbol s) (cs ++ rest) := ⟨c, [], rfl, hc _⟩
  exact hl.scans (h _ _ hr hs)

theorem Cuts.enclosed {c d : Char} {s t : Symbol} {cs : List Char} {ws : List Lexeme} (h : Cuts cs ws)
    (hc : ∀ rest, pieceAt c rest = .ok (.lexeme (.symbol s), 0))
    (hd : ∀ rest, pieceAt d rest = .ok (.lexeme (.symbol t), 0)) (hb : ∀ rest, Boundary (d :: rest)) :
    Cuts (c :: (cs ++ [d])) (.symbol s :: (ws ++ [.symbol t])) :=
  Cuts.mark hc (Cuts.append h (Cuts.mark hd cuts_nil) fun _ => hb _)

/-! ## Words -/

theorem isWord_iff {s : String} :
    isWord s = true ↔ ∃ c u, s.toList = c :: u ∧ (isLetter c || c == '_') = true ∧ ∀ d ∈ u, isWordChar d = true := by
  unfold isWord
  cases s.toList with
  | nil => simp
  | cons c u =>
    rw [Bool.and_eq_true, List.all_eq_true]
    constructor
    · intro h
      exact ⟨c, u, rfl, h⟩
    · rintro ⟨_, _, ⟨⟩, h⟩
      exact h

theorem wordStart_not_isDigit {c : Char} (h : (isLetter c || c == '_') = true) : isDigit c = false := by
  rcases Bool.or_eq_true_iff.mp h with h | h
  · exact isLetter_not_isDigit h
  · rw [beq_iff_eq.mp h]; rfl

/-- What begins a word begins nothing else. -/
theorem pieceAt_word {c : Char} (h : (isLetter c || c == '_') = true) (cs : List Char) :
    pieceAt c cs =
      let tail := cs.takeWhile fun d => isAlphanumeric d || d == '_'
      .ok (.lexeme (wordLexeme (String.ofList (c :: tail))), tail.length) := by
  have hd : isDigit c = false := wordStart_not_isDigit h
  have hne : ∀ d, (isLetter d || d == '_') = false → (c == d) = false := by
    intro d hd
    refine beq_eq_false_iff_ne.mpr fun he => ?_
    rw [he, hd] at h
    cases h
  have hn := hne '\n' rfl
  have hs := hne ' ' rfl
  have ht := hne '\t' rfl
  have hr := hne '\r' rfl
  have hc := hne '#' rfl
  simp only [pieceAt, hn, hs, ht, hr, hc, hd, h, Bool.or_self, if_true, if_false, Bool.false_eq_true]

theorem lexes_word {s : String} (h : isWord s = true) {rest : List Char} (hr : Boundary rest) :
    Lexes s.toList (wordLexeme s) rest := by
  obtain ⟨c, u, hs, hc, hu⟩ := isWord_iff.mp h
  refine ⟨c, u, hs, ?_⟩
  have htail : (u ++ rest).takeWhile (fun d => isAlphanumeric d || d == '_') = u :=
    hr.takeWhile hu fun _ h => .inl h
  have hword : String.ofList (c :: u) = s := by rw [← hs, String.ofList_toList]
  rw [pieceAt_word hc]
  simp only [htail, hword]

/-- A point before a word begins no fraction. -/
theorem boundary_dot {n : String} (h : isWord n = true) (rest : List Char) : Boundary ('.' :: (n.toList ++ rest)) := by
  obtain ⟨c, u, hn, hc, -⟩ := isWord_iff.mp h
  have hd : ¬ isDigit c = true := by rw [wordStart_not_isDigit hc]; decide
  refine ⟨by intro d h; cases h; decide, ?_⟩
  rw [hn, List.cons_append]
  simp only [fractionLength, List.takeWhile_cons_of_neg hd, List.length_nil, if_true]

theorem wordLexeme_names (s : String) : Names (wordLexeme s) s := by
  unfold wordLexeme
  split
  · rename_i k hk
    have hfind : Keyword.all.find? (fun k => k.text == s) = some k := hk
    have htext := List.find?_some hfind
    rw [← beq_iff_eq.mp htext]
    exact .keyword k
  · exact .ident s

theorem isName_iff {s : String} : isName s = true ↔ isWord s = true ∧ wordLexeme s = .ident s := by
  unfold isName wordLexeme
  cases hk : Keyword.ofText? s with
  | none => simp
  | some k => simp

/-! ## Numbers -/

theorem isDigit_ascii {c : Char} (h : c.isDigit = true) : isDigit c = true := by
  have := Numeral.isDigit_range h
  unfold isDigit
  rw [if_pos (by omega), h]

/-- What begins with a digit is a numeral; the other pieces begin with none. -/
theorem pieceAt_digit {c : Char} (h : c.isDigit = true) {cs : List Char} {n : Nat} {v : Numeral}
    (hn : numeralLength (c :: cs) = (n, false)) (hv : readNumeral ((c :: cs).take n) false = .ok v) :
    pieceAt c cs = .ok (.lexeme (.number v), n - 1) := by
  have hne : ∀ d : Char, d.isDigit = false → (c == d) = false :=
    fun d hd => beq_eq_false_iff_ne.mpr (Numeral.isDigit_ne h hd)
  have hl := hne '\n' rfl
  have hs := hne ' ' rfl
  have ht := hne '\t' rfl
  have hr := hne '\r' rfl
  have hc := hne '#' rfl
  simp only [pieceAt, hl, hs, ht, hr, hc, isDigit_ascii h, hn, hv, Bool.or_self, if_true, if_false, Bool.false_eq_true]

theorem lexes_number {n : Nat} (h : (Nat.toDigits 10 n).length ≤ Decimal.digitLimit) {rest : List Char}
    (hr : Boundary rest) : Lexes (Nat.toDigits 10 n) (.number (.int n)) rest := by
  have hdigits := Numeral.toDigits_isDigit n
  have hread := Numeral.readInt_toDigits h
  obtain ⟨c, u, hu⟩ := List.exists_cons_of_ne_nil (Nat.toDigits_ne_nil (n := n) (b := 10))
  rw [hu] at hdigits hread ⊢
  have htake : (c :: (u ++ rest)).takeWhile isDigit = c :: u :=
    hr.takeWhile (fun d hd => isDigit_ascii (hdigits d hd)) fun _ h => .inr h
  have hdrop : (c :: (u ++ rest)).drop (u.length + 1) = rest := by
    rw [List.drop_succ_cons, List.drop_left]
  have hlength : numeralLength (c :: (u ++ rest)) = (u.length + 1, false) := by
    simp only [numeralLength, htake, List.length_cons, hdrop, hr.whole, Nat.add_zero, hr.exponentLength]
    rfl
  have hvalue : readNumeral ((c :: (u ++ rest)).take (u.length + 1)) false = .ok (.int n) := by
    rw [List.take_succ_cons, List.take_left]
    simp only [readNumeral, hread, Int.toNat_natCast, if_false, Bool.false_eq_true]
  exact ⟨c, u, rfl, pieceAt_digit (hdigits c (by simp)) hlength hvalue⟩

/-! ## Strings -/

theorem stringBody_plain {q c : Char} {cs : List Char} (hn : c ≠ '\n') (hb : c ≠ '\\') (hq : c ≠ q) :
    stringBody q (c :: cs) = (stringBody q cs).map fun b => (c :: b.1, b.2 + 1) := by
  rw [stringBody]
  · rw [if_neg (by simpa using hq)]
  · exact hn
  · rintro rfl -
    exact hb rfl
  · rintro _ _ rfl -
    exact hb rfl

theorem stringBody_escape (c : Char) (cs : List Char) :
    stringBody '"' (escape c ++ cs) = (stringBody '"' cs).map fun b => (c :: b.1, b.2 + (escape c).length) := by
  by_cases hn : c = '\n'
  · subst hn; rfl
  by_cases ht : c = '\t'
  · subst ht; rfl
  by_cases hr : c = '\r'
  · subst hr; rfl
  by_cases hb : c = '\\'
  · subst hb; rfl
  by_cases hq : c = '"'
  · subst hq; rfl
  have he : escape c = [c] := by simp [escape, hn, ht, hr, hb, hq]
  rw [he]
  exact stringBody_plain hn hb hq

theorem stringBody_quoted (s rest : List Char) :
    stringBody '"' (s.flatMap escape ++ '"' :: rest) = some (s, (s.flatMap escape).length + 1) := by
  induction s with
  | nil => rfl
  | cons c s ih =>
    rw [List.flatMap_cons, List.append_assoc, stringBody_escape, ih]
    simp only [Option.map_some, List.length_append]
    congr 2
    omega

theorem pieceAt_quote (cs : List Char) :
    pieceAt '"' cs =
      match stringBody '"' cs with
      | some (body, n) => .ok (.lexeme (.string (String.ofList body)), n)
      | none => .error (.bad .unterminatedString) := rfl

theorem lexes_string (s : String) (rest : List Char) : Lexes (quote s.toList) (.string s) rest := by
  refine ⟨'"', _, rfl, ?_⟩
  have hbody : stringBody '"' (s.toList.flatMap escape ++ ['"'] ++ rest) =
      some (s.toList, (s.toList.flatMap escape).length + 1) := by
    rw [List.append_assoc]
    exact stringBody_quoted s.toList rest
  rw [pieceAt_quote, hbody]
  simp only [String.ofList_toList, List.length_append, List.length_singleton]

/-! ## Signs -/

/-- Before a text that begins with no `=`, a sign is itself. -/
theorem pieceAt_sign {rest : List Char} (h : rest.head? ≠ some '=') :
    pieceAt '-' rest = .ok (.lexeme (.symbol .minus), 0) ∧ pieceAt '+' rest = .ok (.lexeme (.symbol .plus), 0) := by
  cases rest with
  | nil => exact ⟨rfl, rfl⟩
  | cons c rest =>
    have hc : ('=' == c) = false := beq_eq_false_iff_ne.mpr fun he => h (by rw [he]; rfl)
    have hminus : isDigit '-' = false ∧ isLetter '-' = false := ⟨rfl, rfl⟩
    have hplus : isDigit '+' = false ∧ isLetter '+' = false := ⟨rfl, rfl⟩
    constructor
    · simp [pieceAt, Symbol.all, Symbol.text, List.find?, List.isPrefixOf, hc, hminus.1, hminus.2]
      rfl
    · simp [pieceAt, Symbol.all, Symbol.text, List.find?, List.isPrefixOf, hc, hplus.1, hplus.2]
      rfl

theorem lexes_sign {rest : List Char} (h : rest.head? ≠ some '=') :
    Lexes ['-'] (.symbol .minus) rest ∧ Lexes ['+'] (.symbol .plus) rest :=
  ⟨⟨'-', [], rfl, (pieceAt_sign h).1⟩, ⟨'+', [], rfl, (pieceAt_sign h).2⟩⟩

end StepFlow.Script
