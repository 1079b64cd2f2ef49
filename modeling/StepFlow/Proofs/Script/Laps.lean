/-
  StepFlow.Proofs.Script.Laps — the scan as a loop that moves through a text.

  The scan is given the characters that are left. As a loop (`Scanning.lap`) it has a place in
  the text, and each lap reads the piece that begins there; the loop is over at the end of the
  text, or at a piece that cannot be read.

  Proved:
  (1) A lap goes forward and stays within the text (`lap_advances`), so there are at most as many
      laps as characters, and the loop comes to what the scan gives (`laps_end`).
  (2) The depth is that of the tokens found so far (`Laps.depth_eq`), and each token has a lap
      that finds it (`laps_find`).
-/

import StepFlow.Proofs.Script.Joining

namespace StepFlow.Script

/-- The loop at the beginning of a lap: where it is in the text, and the tokens found so far. -/
structure Scanning where
  pos : Nat
  line : Nat
  column : Nat
  depth : Nat
  found : List Token

/-- What a lap leads to: another lap, or the end of the loop. -/
inductive Lap where
  | on (s : Scanning)
  | stop (r : Except Fault Tokens)

namespace Scanning

def start : Scanning := ⟨0, 1, 1, 0, []⟩

/-- Behind a piece that has `n` characters after its first one. -/
def past (s : Scanning) (n : Nat) : Piece → Scanning
  | .newline =>
    { s with
      pos := s.pos + 1 + n
      line := s.line + 1
      column := 1
      found := if s.depth = 0 then s.found ++ [⟨.newline, ⟨s.line, s.column⟩⟩] else s.found }
  | .lexeme l =>
    { s with
      pos := s.pos + 1 + n
      column := s.column + 1 + n
      depth := depthAfter s.depth l
      found := s.found ++ [⟨l, ⟨s.line, s.column⟩⟩] }
  | .blank | .comment => { s with pos := s.pos + 1 + n, column := s.column + 1 + n }

def lap (text : List Char) (s : Scanning) : Lap :=
  match text.drop s.pos with
  | [] => .stop (.ok ⟨s.found, ⟨s.line, s.column⟩⟩)
  | c :: cs => match pieceAt c cs with
    | .error (.bad cause) => .stop (.error (.bad ⟨cause, some ⟨s.line, s.column⟩⟩))
    | .error (.trouble t) => .stop (.error (.trouble t))
    | .ok (p, n) => .on (s.past n p)

/-- What the scan of the characters that are left makes of what was found. -/
def outcome (text : List Char) (s : Scanning) : Except Fault Tokens :=
  (scanFrom s.line s.column s.depth (text.drop s.pos)).map fun ts => { ts with list := s.found ++ ts.list }

end Scanning

/-- The loop at the beginning of each lap, with the number of laps before. -/
inductive Laps (text : List Char) : Nat → Scanning → Prop
  | start : Laps text 0 .start
  | lap {k : Nat} {s s' : Scanning} : Laps text k s → s.lap text = .on s' → Laps text (k + 1) s'

section

variable {text : List Char} {s s' : Scanning} {k : Nat}

theorem pieceAt_within {c : Char} {cs : List Char} {p : Piece} {n : Nat} (h : pieceAt c cs = .ok (p, n)) :
    n ≤ cs.length := (pieceAt_feed h []).2

/-- What a lap reads that leads to another one. -/
theorem lap_on (h : s.lap text = .on s') :
    ∃ c cs p n, text.drop s.pos = c :: cs ∧ pieceAt c cs = .ok (p, n) ∧ s' = s.past n p := by
  unfold Scanning.lap at h
  split at h
  · cases h
  · rename_i c cs hdrop
    split at h
    · cases h
    · cases h
    · rename_i p n hp
      cases h
      exact ⟨c, cs, p, n, hdrop, hp, rfl⟩

theorem past_pos (s : Scanning) (n : Nat) (p : Piece) : (s.past n p).pos = s.pos + 1 + n := by cases p <;> rfl

theorem lap_advances (h : s.lap text = .on s') : s.pos < s'.pos ∧ s'.pos ≤ text.length := by
  obtain ⟨c, cs, p, n, hdrop, hp, rfl⟩ := lap_on h
  have hn := pieceAt_within hp
  have hlength := congrArg List.length hdrop
  rw [List.length_drop, List.length_cons] at hlength
  rw [past_pos]
  omega

/-! ## What the loop comes to -/

theorem lap_stop {r : Except Fault Tokens} (h : s.lap text = .stop r) : s.outcome text = r := by
  unfold Scanning.lap at h
  unfold Scanning.outcome
  split at h
  · rename_i hdrop
    cases h
    rw [hdrop, scanFrom]
    simp only [Except.map, List.append_nil]
  · rename_i c cs hdrop
    rw [hdrop]
    split at h
    · rename_i cause hp
      cases h
      rw [scanFrom, hp]
      rfl
    · rename_i t hp
      cases h
      rw [scanFrom, hp]
      rfl
    · cases h

theorem lap_outcome (h : s.lap text = .on s') : s'.outcome text = s.outcome text := by
  obtain ⟨c, cs, p, n, hdrop, hp, rfl⟩ := lap_on h
  have hleft : text.drop (s.pos + 1 + n) = cs.drop n := by
    rw [← List.drop_drop, ← List.drop_drop, hdrop, List.drop_one, List.tail_cons]
  unfold Scanning.outcome
  rw [past_pos, hleft, hdrop]
  cases p with
  | newline =>
    rw [scanFrom_newline hp]
    simp only [Scanning.past]
    cases scanFrom (s.line + 1) 1 s.depth (cs.drop n) with
    | error f => rfl
    | ok ts => by_cases hd : s.depth = 0 <;> simp [hd, Except.map]
  | lexeme l =>
    rw [scanFrom_lexeme hp]
    simp only [Scanning.past]
    cases scanFrom s.line (s.column + 1 + n) (depthAfter s.depth l) (cs.drop n) with
    | error f => rfl
    | ok ts => simp [Except.map]
  | blank => rw [scanFrom_skipped hp (.inl rfl)]; rfl
  | comment => rw [scanFrom_skipped hp (.inr rfl)]; rfl

theorem Laps.outcome_eq (h : Laps text k s) : s.outcome text = scanFrom 1 1 0 text := by
  induction h with
  | start =>
    show (scanFrom 1 1 0 text).map _ = _
    cases scanFrom 1 1 0 text <;> rfl
  | lap _ hlap ih => exact (lap_outcome hlap).trans ih

/-- A lap takes at least one character. -/
theorem Laps.count_le (h : Laps text k s) : k ≤ s.pos ∧ s.pos ≤ text.length := by
  induction h with
  | start => exact ⟨Nat.le_refl _, Nat.zero_le _⟩
  | lap _ hlap ih =>
    have hadvance := lap_advances hlap
    exact ⟨by omega, hadvance.2⟩

/-- The loop ends from wherever it is. -/
theorem Laps.stops {k : Nat} {s : Scanning} (h : Laps text k s) :
    ∃ k' s', Laps text k' s' ∧ s'.lap text = .stop (scanFrom 1 1 0 text) := by
  cases hlap : s.lap text with
  | stop r =>
    have hr := (lap_stop hlap).symm.trans h.outcome_eq
    exact ⟨k, s, h, hr ▸ hlap⟩
  | on s' =>
    have hadvance := lap_advances hlap
    exact (h.lap hlap).stops
  termination_by text.length - s.pos

theorem laps_end (text : List Char) :
    ∃ k s, k ≤ text.length ∧ Laps text k s ∧ s.lap text = .stop (scanFrom 1 1 0 text) := by
  have hstart : Laps text 0 .start := .start
  obtain ⟨k, s, h, hstop⟩ := hstart.stops
  exact ⟨k, s, Nat.le_trans h.count_le.1 h.count_le.2, h, hstop⟩

/-! ## Tokens and depth -/

theorem lap_found (h : s.lap text = .on s') :
    (s'.found = s.found ∧ s'.depth = s.depth) ∨
    ∃ t, s'.found = s.found ++ [t] ∧ s'.depth = depthAfter s.depth t.lexeme := by
  obtain ⟨c, cs, p, n, -, -, rfl⟩ := lap_on h
  cases p with
  | newline =>
    by_cases hd : s.depth = 0
    · exact .inr ⟨⟨.newline, ⟨s.line, s.column⟩⟩, if_pos hd, rfl⟩
    · exact .inl ⟨if_neg hd, rfl⟩
  | lexeme l => exact .inr ⟨⟨l, ⟨s.line, s.column⟩⟩, rfl, rfl⟩
  | blank | comment => exact .inl ⟨rfl, rfl⟩

/-- The depth is that of the tokens found so far. -/
theorem Laps.depth_eq (h : Laps text k s) : s.depth = depthThrough 0 (words s.found) := by
  induction h with
  | start => rfl
  | lap _ hlap ih =>
    rcases lap_found hlap with ⟨hfound, hdepth⟩ | ⟨t, hfound, hdepth⟩
    · rw [hfound, hdepth, ih]
    · rw [hfound, hdepth, ih, words_append, depthThrough_append]
      rfl

/-- The lap that begins at `s` finds the token at a place. -/
def Finds (text : List Char) (ts : List Token) (i : Nat) (s : Scanning) : Prop :=
  (∃ k, Laps text k s) ∧ ∃ s', s.lap text = .on s' ∧ s.found = ts.take i ∧ s'.found = ts.take (i + 1)

theorem Laps.finds {ts : List Token} (h : Laps text k s) (hts : s.found <+: ts) :
    ∀ i < s.found.length, ∃ s', Finds text ts i s' := by
  induction h with
  | start => exact nofun
  | @lap k s s' h hlap ih =>
    rcases lap_found hlap with ⟨hfound, -⟩ | ⟨t, hfound, -⟩
    · rw [hfound] at hts ⊢
      exact ih hts
    · have hbefore : s.found <+: ts := (hfound ▸ List.prefix_append _ _).trans hts
      have hlength : s'.found.length = s.found.length + 1 := by rw [hfound, List.length_append]; rfl
      intro i hi
      rcases Nat.lt_or_ge i s.found.length with hlt | hge
      · exact ih hbefore i hlt
      · obtain rfl : i = s.found.length := by omega
        refine ⟨s, ⟨k, h⟩, s', hlap, List.prefix_iff_eq_take.mp hbefore, ?_⟩
        rw [← hlength]
        exact List.prefix_iff_eq_take.mp hts

/-- At the end of the text all tokens are found. -/
theorem lap_stop_found {ts : Tokens} (h : s.lap text = .stop (.ok ts)) : s.found = ts.list := by
  unfold Scanning.lap at h
  split at h
  · cases h
    rfl
  · split at h <;> cases h

theorem laps_find {ts : Tokens} (hscan : scanFrom 1 1 0 text = .ok ts) {i : Nat} (hi : i < ts.list.length) :
    ∃ s, Finds text ts.list i s := by
  obtain ⟨k, s, -, h, hstop⟩ := laps_end text
  rw [hscan] at hstop
  have hfound := lap_stop_found hstop
  exact h.finds (hfound ▸ List.prefix_refl _) i (hfound ▸ hi)

end

end StepFlow.Script
