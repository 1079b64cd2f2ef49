/-
  StepFlow.Proofs.Script.Spelling — how lexemes are spelled, and that the scan takes the
  longest one there is.

  What spells a lexeme is said without the scan (`Spelled`): words by their characters,
  numerals by their parts, strings by their quotes and escapes, signs by the list of them. The
  class of a lexeme shows in its first character, so each law is proved class by class.

  Proved:
  (1) `pieceAt_spelled`: the characters that the scan takes for a lexeme spell it.
  (2) `Spelled.alone`: what spells a lexeme is scanned as just that lexeme.
  (3) `Spelled.within`: at the beginning of a text nothing spells a lexeme that is longer than
      the one that the scan takes.
-/

import StepFlow.Proofs.Script.Joining
import StepFlow.Proofs.Script.Lexing

namespace StepFlow.Script

open Text (isDigit isLetter isAlphanumeric)

/-! ## Spellings -/

structure Digits (ds : List Char) : Prop where
  some : ds ≠ []
  all : ∀ d ∈ ds, isDigit d = true

/-- The fraction of a numeral, if it has one. -/
inductive Fraction : List Char → Prop
  | none : Fraction []
  | places {ds : List Char} : Digits ds → Fraction ('.' :: ds)

/-- The exponent of a numeral, if it has one. -/
inductive Exponent : List Char → Prop
  | none : Exponent []
  | power {e : Char} {sign ds : List Char} : e = 'e' ∨ e = 'E' → sign = [] ∨ sign = ['+'] ∨ sign = ['-'] →
      Digits ds → Exponent (e :: (sign ++ ds))

/-- The characters of a string after its opening quote, and what they stand for. -/
inductive Quoted (quote : Char) : List Char → List Char → Prop
  | close : Quoted quote [quote] []
  | plain {c : Char} {cs body : List Char} : c ≠ quote → c ≠ '\\' → c ≠ '\n' → Quoted quote cs body →
      Quoted quote (c :: cs) (c :: body)
  | escape (c : Char) {cs body : List Char} : Quoted quote cs body → Quoted quote ('\\' :: c :: cs) (escaped c ++ body)

/-- The text is one lexeme. -/
inductive Spelled : List Char → Lexeme → Prop
  | feed : Spelled ['\n'] .newline
  | word {c : Char} {u : List Char} : (isLetter c || c == '_') = true →
      (∀ d ∈ u, (isAlphanumeric d || d == '_') = true) → Spelled (c :: u) (wordLexeme (String.ofList (c :: u)))
  | numeral {ds f e : List Char} {v : Numeral} : Digits ds → Fraction f → Exponent e →
      readNumeral (ds ++ (f ++ e)) (decide (f ++ e ≠ [])) = .ok v → Spelled (ds ++ (f ++ e)) (.number v)
  | string {quote : Char} {cs body : List Char} : quote = '\'' ∨ quote = '"' → Quoted quote cs body →
      Spelled (quote :: cs) (.string (String.ofList body))
  | symbol (s : Symbol) : Spelled s.text.toList (.symbol s)

/-! ## Numerals -/

theorem isDigit_point : isDigit '.' = false := rfl

/-- A part of a numeral after its first digits begins with none. -/
theorem takeWhile_part {u : List Char} (h : ∀ c ∈ u.head?, isDigit c = false) (hu : u ≠ []) (rest : List Char) :
    (u ++ rest).takeWhile isDigit = [] := by
  obtain ⟨c, u, rfl⟩ := List.exists_cons_of_ne_nil hu
  have hc : ¬ isDigit c = true := by
    rw [h c rfl]
    decide
  rw [List.cons_append, List.takeWhile_cons_of_neg hc]

theorem Exponent.head {e : List Char} (h : Exponent e) : ∀ c ∈ e.head?, c = 'e' ∨ c = 'E' := by
  cases h with
  | none => exact fun c hc => (by cases hc)
  | power he =>
    intro c hc
    cases hc
    exact he

theorem Exponent.notDigit {e : List Char} (h : Exponent e) : ∀ c ∈ e.head?, isDigit c = false := by
  intro c hc
  rcases h.head c hc with rfl | rfl
  · rfl
  · rfl

theorem fractionLength_exponent {e : List Char} (h : Exponent e) (he : e ≠ []) (rest : List Char) :
    fractionLength (e ++ rest) = 0 := by
  obtain ⟨c, e, rfl⟩ := List.exists_cons_of_ne_nil he
  rcases h.head c rfl with rfl | rfl
  · rfl
  · rfl

/-- The digits of a text that begins with some go on with those that follow them. -/
theorem Digits.takeWhile {ds : List Char} (h : Digits ds) (rest : List Char) :
    (ds ++ rest).takeWhile isDigit = ds ++ rest.takeWhile isDigit := List.takeWhile_append_of_pos h.all

theorem Digits.length_pos {ds : List Char} (h : Digits ds) : 0 < ds.length := List.length_pos_of_ne_nil h.some

theorem digits_takeWhile {cs : List Char} (h : (cs.takeWhile isDigit).length ≠ 0) : Digits (cs.takeWhile isDigit) :=
  ⟨fun hnil => h (by rw [hnil]; rfl), fun _ hd => List.mem_takeWhile_imp hd⟩

theorem fractionLength_point (cs : List Char) :
    fractionLength ('.' :: cs) =
      if (cs.takeWhile isDigit).length = 0 then 0 else (cs.takeWhile isDigit).length + 1 := rfl

theorem take_takeWhile {p : Char → Bool} (cs : List Char) : cs.take (cs.takeWhile p).length = cs.takeWhile p :=
  List.prefix_iff_eq_take.mp (List.takeWhile_prefix p) |>.symm

/-- The characters that are counted for a fraction are one. -/
theorem fractionLength_sound (cs : List Char) : Fraction (cs.take (fractionLength cs)) := by
  match cs with
  | [] => exact .none
  | c :: cs =>
    by_cases hc : c = '.'
    · subst hc
      rw [fractionLength_point]
      by_cases hn : (cs.takeWhile isDigit).length = 0
      · rw [if_pos hn]
        exact .none
      · rw [if_neg hn, List.take_succ_cons, take_takeWhile]
        exact .places (digits_takeWhile hn)
    · have hzero : fractionLength (c :: cs) = 0 := by simp [fractionLength, hc]
      rw [hzero]
      exact .none

/-- The sign of an exponent, if it has one. -/
theorem signLength_sound (cs : List Char) :
    cs.take (signLength cs) = [] ∨ cs.take (signLength cs) = ['+'] ∨ cs.take (signLength cs) = ['-'] := by
  match cs with
  | [] => exact .inl rfl
  | c :: cs =>
    by_cases hp : c = '+'
    · subst hp
      exact .inr (.inl rfl)
    by_cases hm : c = '-'
    · subst hm
      exact .inr (.inr rfl)
    have hzero : signLength (c :: cs) = 0 := by simp [signLength, hp, hm]
    rw [hzero]
    exact .inl rfl

theorem exponentLength_sound (cs : List Char) : Exponent (cs.take (exponentLength cs)) := by
  match cs with
  | [] => exact .none
  | c :: cs =>
    rw [exponentLength_cons]
    by_cases he : (c == 'e' || c == 'E') = true
    · rw [if_pos he]
      dsimp only
      by_cases hn : ((cs.drop (signLength cs)).takeWhile isDigit).length = 0
      · rw [if_pos hn]
        exact .none
      · have hlength : 1 + signLength cs + ((cs.drop (signLength cs)).takeWhile isDigit).length =
            signLength cs + ((cs.drop (signLength cs)).takeWhile isDigit).length + 1 := by omega
        rw [if_neg hn, hlength, List.take_succ_cons, List.take_add, take_takeWhile]
        refine .power ?_ (signLength_sound cs) (digits_takeWhile hn)
        simpa using he
    · rw [if_neg he]
      exact .none

/-- What is taken for a numeral is made of its parts. -/
theorem numeralLength_sound {c : Char} (hc : isDigit c = true) (cs : List Char) :
    ∃ ds f e, (c :: cs).take (numeralLength (c :: cs)).1 = ds ++ (f ++ e) ∧ Digits ds ∧ Fraction f ∧ Exponent e ∧
      (numeralLength (c :: cs)).2 = decide (f ++ e ≠ []) := by
  let us := c :: cs
  let whole := (us.takeWhile isDigit).length
  let fraction := fractionLength (us.drop whole)
  have hwhole : whole ≠ 0 := by
    show ((c :: cs).takeWhile isDigit).length ≠ 0
    rw [List.takeWhile_cons_of_pos hc]
    exact Nat.succ_ne_zero _
  refine ⟨us.take whole, (us.drop whole).take fraction,
    (us.drop (whole + fraction)).take (exponentLength (us.drop (whole + fraction))), ?_, ?_,
    fractionLength_sound _, exponentLength_sound _, ?_⟩
  · show us.take (whole + fraction + exponentLength (us.drop (whole + fraction))) = _
    rw [List.take_add, List.take_add, List.append_assoc]
  · show Digits (us.take (us.takeWhile isDigit).length)
    rw [take_takeWhile]
    exact digits_takeWhile hwhole
  · show decide (0 < fraction + exponentLength (us.drop (whole + fraction))) = _
    have hfraction : ((us.drop whole).take fraction).length = fraction := by
      rw [List.length_take]
      exact Nat.min_eq_left (fractionLength_le _)
    have hexponent : ((us.drop (whole + fraction)).take (exponentLength (us.drop (whole + fraction)))).length =
        exponentLength (us.drop (whole + fraction)) := by
      rw [List.length_take]
      exact Nat.min_eq_left (exponentLength_le _)
    rw [decide_eq_decide, ← List.length_pos_iff, List.length_append, hfraction, hexponent]

/-- An exponent is counted as a whole, with the digits that follow it. -/
theorem Exponent.reaches {e : List Char} (h : Exponent e) (rest : List Char) :
    e.length ≤ exponentLength (e ++ rest) := by
  cases h with
  | none => exact Nat.zero_le _
  | @power c sign ds hc hsign hds =>
    have he : (c == 'e' || c == 'E') = true := by simpa using hc
    have hlength : signLength (sign ++ ds ++ rest) = sign.length := by
      rcases hsign with rfl | rfl | rfl
      · obtain ⟨d, ds, rfl⟩ := List.exists_cons_of_ne_nil hds.some
        have hd := hds.all d List.mem_cons_self
        have hp : d ≠ '+' := by rintro rfl; cases hd
        have hm : d ≠ '-' := by rintro rfl; cases hd
        simp [signLength, hp, hm]
      · rfl
      · rfl
    have hdrop : (sign ++ ds ++ rest).drop sign.length = ds ++ rest := by rw [List.append_assoc, List.drop_left]
    have hpos := hds.length_pos
    rw [List.cons_append, exponentLength_cons, if_pos he, hlength, hdrop]
    dsimp only
    rw [hds.takeWhile, List.length_append, if_neg (by omega), List.length_cons, List.length_append]
    omega

/-- A numeral is counted as a whole, whatever follows it. -/
theorem numeralLength_reaches {ds f e : List Char} (hd : Digits ds) (hf : Fraction f) (he : Exponent e)
    (rest : List Char) : (ds ++ (f ++ e)).length ≤ (numeralLength (ds ++ (f ++ e) ++ rest)).1 := by
  have hwhole : (ds ++ (f ++ e) ++ rest).takeWhile isDigit = ds ++ (f ++ e ++ rest).takeWhile isDigit := by
    rw [List.append_assoc]
    exact hd.takeWhile _
  have hdrop : (ds ++ (f ++ e) ++ rest).drop ds.length = f ++ e ++ rest := by rw [List.append_assoc, List.drop_left]
  by_cases hnil : f ++ e = []
  · unfold numeralLength
    rw [hwhole, hnil]
    simp only [List.append_nil, List.length_append]
    omega
  cases hf with
  | none =>
    -- the exponent comes next, and it begins with no digit
    rw [List.nil_append] at hnil hwhole hdrop ⊢
    rw [takeWhile_part he.notDigit hnil, List.append_nil] at hwhole
    unfold numeralLength
    rw [hwhole]
    dsimp only
    rw [hdrop, fractionLength_exponent he hnil, Nat.add_zero, hdrop, List.length_append]
    have hreaches := he.reaches rest
    omega
  | @places fs hfs =>
    have hpoint : ¬ isDigit '.' = true := by
      rw [isDigit_point]
      decide
    rw [List.cons_append, List.cons_append, List.takeWhile_cons_of_neg hpoint, List.append_nil] at hwhole
    rw [List.cons_append] at hdrop ⊢
    unfold numeralLength
    rw [hwhole]
    dsimp only
    rw [hdrop, List.cons_append, fractionLength_point, List.append_assoc, hfs.takeWhile]
    have hpos := hfs.length_pos
    by_cases hnone : e = []
    · subst hnone
      rw [List.length_append, List.length_append, if_neg (by omega)]
      simp only [List.length_append, List.length_cons, List.length_nil]
      omega
    · have hrest : (ds ++ ('.' :: (fs ++ e)) ++ rest).drop (ds.length + (fs.length + 1)) = e ++ rest := by
        have hsplit : ds ++ ('.' :: (fs ++ e)) ++ rest = (ds ++ '.' :: fs) ++ (e ++ rest) := by simp
        have hlength : ds.length + (fs.length + 1) = (ds ++ '.' :: fs).length := by simp
        rw [hsplit, hlength, List.drop_left]
      rw [takeWhile_part he.notDigit hnone, List.append_nil, if_neg (by omega), hrest]
      have hreaches := he.reaches rest
      simp only [List.length_append, List.length_cons]
      omega

/-- A numeral that stands alone is counted as what it is. -/
theorem numeralLength_alone {ds f e : List Char} (hd : Digits ds) (hf : Fraction f) (he : Exponent e) :
    numeralLength (ds ++ (f ++ e)) = ((ds ++ (f ++ e)).length, decide (f ++ e ≠ [])) := by
  have hreaches := numeralLength_reaches hd hf he []
  rw [List.append_nil] at hreaches
  have hle := numeralLength_le (ds ++ (f ++ e))
  have hwhole : (ds ++ (f ++ e)).takeWhile isDigit = ds := by
    rw [hd.takeWhile]
    by_cases hnil : f ++ e = []
    · rw [hnil, List.takeWhile_nil, List.append_nil]
    · have hhead : ∀ c ∈ (f ++ e).head?, isDigit c = false := by
        cases hf with
        | none => exact he.notDigit
        | places =>
          intro c hc
          cases hc
          rfl
      have hnone := takeWhile_part hhead hnil []
      rw [List.append_nil] at hnone
      rw [hnone, List.append_nil]
  refine Prod.ext (Nat.le_antisymm hle hreaches) ?_
  have hsum : (numeralLength (ds ++ (f ++ e))).1 = (ds ++ (f ++ e)).length := Nat.le_antisymm hle hreaches
  unfold numeralLength at hsum ⊢
  rw [hwhole] at hsum ⊢
  dsimp only at hsum ⊢
  rw [List.length_append] at hsum
  rw [decide_eq_decide, ← List.length_pos_iff]
  omega

/-! ## Strings -/

/-- The characters that are taken for a string are one. -/
theorem stringBody_sound {quote : Char} {cs body : List Char} {n : Nat} (h : stringBody quote cs = some (body, n)) :
    Quoted quote (cs.take n) body := by
  induction cs using stringBody.induct quote generalizing body n with
  | case1 => cases h
  | case2 cs => cases h
  | case3 => cases h
  | case4 c cs ih =>
    rw [stringBody_backslash] at h
    obtain ⟨⟨body', n'⟩, hb, h⟩ := Option.map_eq_some_iff.mp h
    cases h
    exact .escape c (ih hb)
  | case5 c cs hn hb hb' hq =>
    have hslash : c ≠ '\\' := by
      intro hc
      cases cs with
      | nil => exact hb hc rfl
      | cons d cs => exact hb' d cs hc rfl
    rw [stringBody_other hn hslash, if_pos hq] at h
    cases h
    rw [beq_iff_eq.mp hq]
    exact .close
  | case6 c cs hn hb hb' hq ih =>
    have hslash : c ≠ '\\' := by
      intro hc
      cases cs with
      | nil => exact hb hc rfl
      | cons d cs => exact hb' d cs hc rfl
    rw [stringBody_other hn hslash, if_neg hq] at h
    obtain ⟨⟨body', n'⟩, hrest, h⟩ := Option.map_eq_some_iff.mp h
    cases h
    exact .plain (fun he => hq (beq_iff_eq.mpr he)) hslash hn (ih hrest)

/-- A string is taken up to its closing quote, whatever follows. -/
theorem Quoted.body {quote : Char} (hn : quote ≠ '\n') (hb : quote ≠ '\\') {cs body : List Char}
    (h : Quoted quote cs body) (rest : List Char) : stringBody quote (cs ++ rest) = some (body, cs.length) := by
  induction h with
  | close => rw [List.singleton_append, stringBody_other hn hb, if_pos (beq_self_eq_true quote)]; rfl
  | plain hq hslash hfeed _ ih =>
    rw [List.cons_append, stringBody_other hfeed hslash, if_neg (fun he => hq (beq_iff_eq.mp he)), ih]
    rfl
  | escape c _ ih =>
    rw [List.cons_append, List.cons_append, stringBody_backslash, ih]
    rfl

/-! ## Pieces by their first character -/

theorem pieceAt_numeral {c : Char} (h : isDigit c = true) (cs : List Char) : pieceAt c cs = numberPiece c cs := by
  have hne : ∀ d : Char, isDigit d = false → ¬ (c == d) = true := by
    intro d hd he
    rw [beq_iff_eq.mp he, hd] at h
    cases h
  have hblank : ¬ (c == ' ' || c == '\t' || c == '\r') = true := by
    intro hb
    rcases Bool.or_eq_true_iff.mp hb with hb | hb
    · rcases Bool.or_eq_true_iff.mp hb with hb | hb
      · exact hne ' ' rfl hb
      · exact hne '\t' rfl hb
    · exact hne '\r' rfl hb
  rw [pieceAt_eq, if_neg (hne '\n' rfl), if_neg hblank, if_neg (hne '#' rfl), if_pos h]

theorem pieceAt_string {quote : Char} (h : quote = '\'' ∨ quote = '"') (cs : List Char) :
    pieceAt quote cs = stringPiece quote cs := by
  rcases h with rfl | rfl
  · rfl
  · rfl

theorem pieceAt_symbol (s : Symbol) : ∃ c u, s.text.toList = c :: u ∧ (∀ cs, pieceAt c cs = symbolPiece c cs) ∧
    symbolPiece c u = .ok (.lexeme (.symbol s), u.length) ∧ u.length + 1 = s.text.length := by
  cases s <;> exact ⟨_, _, rfl, fun _ => rfl, rfl, rfl⟩

/-! ## The scan takes spellings -/

section

variable {c : Char} {cs : List Char} {l : Lexeme} {n : Nat}

theorem numberPiece_spelled (hc : isDigit c = true) (h : numberPiece c cs = .ok (.lexeme l, n)) :
    Spelled (c :: cs.take n) l ∧ n ≤ cs.length := by
  obtain ⟨ds, f, e, htake, hd, hf, he, hflag⟩ := numeralLength_sound hc cs
  have hle := numeralLength_le (c :: cs)
  have hpos : (numeralLength (c :: cs)).1 ≠ 0 := by
    intro hzero
    rw [hzero, List.take_zero] at htake
    exact hd.some (List.append_eq_nil_iff.mp htake.symm).1
  unfold numberPiece at h
  generalize numeralLength (c :: cs) = r at h htake hflag hle hpos
  obtain ⟨k, fractional⟩ := r
  dsimp only at h htake hflag hle hpos
  cases hr : readNumeral ((c :: cs).take k) fractional with
  | error t =>
    rw [hr] at h
    cases h
  | ok v =>
    rw [hr] at h
    cases h
    obtain ⟨k, rfl⟩ := Nat.exists_eq_succ_of_ne_zero hpos
    rw [List.length_cons] at hle
    refine ⟨?_, Nat.le_of_succ_le_succ hle⟩
    show Spelled ((c :: cs).take (k + 1)) _
    rw [htake, hflag] at hr
    rw [htake]
    exact .numeral hd hf he hr

theorem stringPiece_spelled (hc : c = '\'' ∨ c = '"') (h : stringPiece c cs = .ok (.lexeme l, n)) :
    Spelled (c :: cs.take n) l ∧ n ≤ cs.length := by
  unfold stringPiece at h
  cases hb : stringBody c cs with
  | none =>
    rw [hb] at h
    cases h
  | some r =>
    obtain ⟨body, k⟩ := r
    rw [hb] at h
    cases h
    exact ⟨.string hc (stringBody_sound hb), (stringBody_append hb []).2⟩

theorem symbolPiece_spelled (h : symbolPiece c cs = .ok (.lexeme l, n)) :
    Spelled (c :: cs.take n) l ∧ n ≤ cs.length := by
  unfold symbolPiece at h
  cases hs : Symbol.all.find? fun s => s.text.toList.isPrefixOf (c :: cs) with
  | none =>
    rw [hs] at h
    cases h
  | some s =>
    rw [hs] at h
    cases h
    obtain ⟨d, u, htext, -, -, hlength⟩ := pieceAt_symbol s
    have hfound := List.find?_some hs
    have hstarts := List.isPrefixOf_iff_prefix.mp hfound
    rw [htext] at hstarts
    obtain ⟨rfl, hbegins⟩ := List.cons_prefix_cons.mp hstarts
    have hcount : s.text.length - 1 = u.length := by omega
    have htake : d :: cs.take (s.text.length - 1) = s.text.toList := by
      rw [hcount, ← List.prefix_iff_eq_take.mp hbegins, htext]
    rw [htake, hcount]
    exact ⟨.symbol s, hbegins.length_le⟩

/-- The characters that are taken for a lexeme spell it. -/
theorem pieceAt_spelled (h : pieceAt c cs = .ok (.lexeme l, n)) : Spelled (c :: cs.take n) l ∧ n ≤ cs.length := by
  rw [pieceAt_eq] at h
  by_cases hfeed : (c == '\n') = true
  · rw [if_pos hfeed] at h
    cases h
  rw [if_neg hfeed] at h
  by_cases hblank : (c == ' ' || c == '\t' || c == '\r') = true
  · rw [if_pos hblank] at h
    cases h
  rw [if_neg hblank] at h
  by_cases hcomment : (c == '#') = true
  · rw [if_pos hcomment] at h
    cases h
  rw [if_neg hcomment] at h
  by_cases hdigit : isDigit c = true
  · rw [if_pos hdigit] at h
    exact numberPiece_spelled hdigit h
  rw [if_neg hdigit] at h
  by_cases hword : (isLetter c || c == '_') = true
  · rw [if_pos hword] at h
    cases h
    rw [take_takeWhile]
    have hword' : ∀ d ∈ cs.takeWhile (fun d => isAlphanumeric d || d == '_'), (isAlphanumeric d || d == '_') = true :=
      fun d hd => List.mem_takeWhile_imp (p := fun d => isAlphanumeric d || d == '_') hd
    exact ⟨.word hword hword', (List.takeWhile_sublist _).length_le⟩
  rw [if_neg hword] at h
  by_cases hquote : (c == '\'' || c == '"') = true
  · rw [if_pos hquote] at h
    exact stringPiece_spelled (by simpa using hquote) h
  rw [if_neg hquote] at h
  exact symbolPiece_spelled h

/-! ## Nothing longer is spelled -/

/-- What an ordered list is searched for comes no later than anything else that would do. -/
theorem find?_first {α : Type} {r : α → α → Prop} {p : α → Bool} {as : List α} {a b : α} (h : as.Pairwise r)
    (ha : as.find? p = some a) (hb : b ∈ as) (hp : p b = true) : b = a ∨ r a b := by
  induction as with
  | nil => cases hb
  | cons d as ih =>
    obtain ⟨hfirst, hrest⟩ := List.pairwise_cons.mp h
    by_cases hd : p d = true
    · rw [List.find?_cons_of_pos hd] at ha
      cases ha
      rcases List.mem_cons.mp hb with hb | hb
      · exact .inl hb
      · exact .inr (hfirst b hb)
    · rw [List.find?_cons_of_neg hd] at ha
      rcases List.mem_cons.mp hb with rfl | hb
      · exact absurd hp hd
      · exact ih hrest ha hb

theorem Symbol.all_longest_first : Symbol.all.Pairwise fun s t => t.text.length ≤ s.text.length := by decide

theorem Symbol.mem_all (s : Symbol) : s ∈ Symbol.all := by cases s <;> decide

/-- The sign that is taken is as long as any other one that the text begins with. -/
theorem symbolPiece_longest {s : Symbol} (hs : s.text.toList <+: c :: cs)
    (h : symbolPiece c cs = .ok (.lexeme l, n)) : s.text.length ≤ n + 1 := by
  unfold symbolPiece at h
  cases ht : Symbol.all.find? fun s => s.text.toList.isPrefixOf (c :: cs) with
  | none =>
    rw [ht] at h
    cases h
  | some t =>
    rw [ht] at h
    cases h
    have hfirst := find?_first Symbol.all_longest_first ht s.mem_all (List.isPrefixOf_iff_prefix.mpr hs)
    rcases hfirst with rfl | hle
    · omega
    · omega

theorem Quoted.quote_ne {quote : Char} (h : quote = '\'' ∨ quote = '"') : quote ≠ '\n' ∧ quote ≠ '\\' := by
  rcases h with rfl | rfl
  · decide
  · decide

/-- Nothing at the beginning of a text spells a lexeme longer than the one that is taken. -/
theorem Spelled.within {p : List Char} {l' : Lexeme} (hp : Spelled p l') (hbegins : p <+: c :: cs)
    (h : pieceAt c cs = .ok (.lexeme l, n)) : p.length ≤ n + 1 := by
  cases hp with
  | feed => exact Nat.succ_le_succ (Nat.zero_le n)
  | @word d u hd hu =>
    obtain ⟨rfl, rest, rfl⟩ := List.cons_prefix_cons.mp hbegins
    rw [pieceAt_word hd] at h
    dsimp only at h
    cases h
    rw [List.takeWhile_append_of_pos hu, List.length_append, List.length_cons]
    omega
  | @numeral ds f e v hds hf he hv =>
    obtain ⟨d, ds, rfl⟩ := List.exists_cons_of_ne_nil hds.some
    obtain ⟨rest, hrest⟩ := hbegins
    have hreaches := numeralLength_reaches hds hf he rest
    rw [hrest] at hreaches
    have hhead : d = c := by
      rw [List.cons_append, List.cons_append] at hrest
      exact (List.cons.inj hrest).1
    subst hhead
    rw [pieceAt_numeral (hds.all d List.mem_cons_self)] at h
    unfold numberPiece at h
    generalize numeralLength (d :: cs) = r at h hreaches
    obtain ⟨k, fractional⟩ := r
    dsimp only at h hreaches
    cases hr : readNumeral ((d :: cs).take k) fractional with
    | error t =>
      rw [hr] at h
      cases h
    | ok v' =>
      rw [hr] at h
      cases h
      omega
  | @string q u body hq hu =>
    obtain ⟨rfl, rest, rfl⟩ := List.cons_prefix_cons.mp hbegins
    obtain ⟨hn, hb⟩ := Quoted.quote_ne hq
    rw [pieceAt_string hq] at h
    unfold stringPiece at h
    rw [hu.body hn hb] at h
    cases h
    exact Nat.le_refl _
  | symbol s =>
    obtain ⟨d, u, htext, hpiece, -⟩ := pieceAt_symbol s
    have hhead : d = c := by
      rw [htext] at hbegins
      exact (List.cons_prefix_cons.mp hbegins).1
    subst hhead
    rw [hpiece] at h
    rw [String.length_toList]
    exact symbolPiece_longest hbegins h

end

/-! ## A lexeme alone -/

theorem scanFrom_nil (line column depth : Nat) : scanFrom line column depth [] = .ok ⟨[], ⟨line, column⟩⟩ := by
  rw [scanFrom]

/-- What spells a lexeme, other than a line feed, is one piece. -/
theorem Spelled.piece {p : List Char} {l : Lexeme} (h : Spelled p l) :
    (p = ['\n'] ∧ l = .newline) ∨ ∃ c u, p = c :: u ∧ pieceAt c u = .ok (.lexeme l, u.length) := by
  cases h with
  | feed => exact .inl ⟨rfl, rfl⟩
  | @word c u hc hu =>
    have htake : u.takeWhile (fun d => isAlphanumeric d || d == '_') = u := List.takeWhile_eq_self_iff.mpr hu
    refine .inr ⟨c, u, rfl, ?_⟩
    rw [pieceAt_word hc]
    simp only [htake]
  | @numeral ds f e v hds hf he hv =>
    have halone := numeralLength_alone hds hf he
    obtain ⟨d, ds, rfl⟩ := List.exists_cons_of_ne_nil hds.some
    refine .inr ⟨d, ds ++ (f ++ e), rfl, ?_⟩
    rw [pieceAt_numeral (hds.all d List.mem_cons_self), numberPiece, ← List.cons_append, halone]
    dsimp only
    rw [List.take_length, hv]
    rfl
  | @string q u body hq hu =>
    obtain ⟨hn, hb⟩ := Quoted.quote_ne hq
    have hbody := hu.body hn hb []
    rw [List.append_nil] at hbody
    refine .inr ⟨q, u, rfl, ?_⟩
    rw [pieceAt_string hq, stringPiece, hbody]
  | symbol s =>
    obtain ⟨c, u, htext, hpiece, halone, -⟩ := pieceAt_symbol s
    exact .inr ⟨c, u, htext, by rw [hpiece, halone]⟩

/-- What spells a lexeme is scanned as just that lexeme. -/
theorem Spelled.alone {p : List Char} {l : Lexeme} (h : Spelled p l) (hlength : p.length ≤ lengthLimit) :
    ∃ stop, scan (String.ofList p) = .ok ⟨[⟨l, ⟨1, 1⟩⟩], stop⟩ := by
  have hscan : ∃ stop, scanFrom 1 1 0 p = .ok ⟨[⟨l, ⟨1, 1⟩⟩], stop⟩ := by
    rcases h.piece with ⟨rfl, rfl⟩ | ⟨c, u, rfl, hpiece⟩
    · have hfeed : pieceAt '\n' [] = .ok (.newline, 0) := rfl
      exact ⟨_, by rw [scanFrom_newline hfeed, List.drop_nil, scanFrom_nil]; rfl⟩
    · exact ⟨_, by rw [scanFrom_lexeme hpiece, List.drop_length, scanFrom_nil]; rfl⟩
  unfold scan
  rw [String.toList_ofList]
  dsimp only
  rw [if_neg (Nat.not_lt.mpr hlength)]
  exact hscan

end StepFlow.Script
