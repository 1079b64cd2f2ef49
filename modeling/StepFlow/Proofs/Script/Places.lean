/-
  StepFlow.Proofs.Script.Places — where tokens stand in their text.

  A position is true if its line is told by the line feeds before it, and its column by the
  characters since the last of them (`Position.after`). The scan counts a new line only at a
  line feed of its own. A string ends before its line does, unless a backslash stands before
  the line feed: then the string goes on, and its line feed counts as any other character
  (`Stretch.counted`).

  Proved, for every text that is scanned:
  (1) `Laid.counts`: the scan tells the true positions of the text with other characters for
      the line feeds inside its strings.
  (2) `Quoted.feed_escaped`: these come right after a backslash.
  (3) `counted_fewer`: so the positions are true, that of the end with them, exactly if no
      string holds a line feed.
-/

import StepFlow.Proofs.Script.Layout

namespace StepFlow.Script

open Text (isDigit isLetter isAlphanumeric)

/-! ## Positions -/

/-- The position of what comes after a text. -/
def Position.after (cs : List Char) : Position :=
  ⟨1 + cs.count '\n', 1 + (cs.reverse.takeWhile (· != '\n')).length⟩

theorem after_feed (cs : List Char) : Position.after (cs ++ ['\n']) = ⟨(Position.after cs).line + 1, 1⟩ := by
  simp [Position.after, Nat.add_assoc]

theorem after_line (cs : List Char) {u : List Char} (hu : '\n' ∉ u) :
    Position.after (cs ++ u) = ⟨(Position.after cs).line, (Position.after cs).column + u.length⟩ := by
  have hstays : ∀ c ∈ u.reverse, (c != '\n') = true := fun c hc =>
    bne_iff_ne.mpr fun h => hu (h ▸ List.mem_reverse.mp hc)
  simp only [Position.after, List.count_append, List.count_eq_zero.mpr hu, List.reverse_append,
    List.takeWhile_append_of_pos hstays, List.length_append, List.length_reverse, Position.mk.injEq]
  omega

namespace Stretch

/-- The text before each of the lexemes, and the whole text, if this text stands before the stretches. -/
def befores (before : List Char) : List Stretch → List (List Char)
  | [] => [before]
  | s :: ss => (s.lexeme?.map fun _ => before).toList ++ befores (before ++ s.source) ss

/-- The positions of the lexemes and of the end. -/
def truePlaces (ss : List Stretch) : List Position := (befores [] ss).map Position.after

def isString (s : Stretch) : Bool :=
  match s.lexeme? with
  | some (.string _) => true
  | _ => false

/-- A stretch as the scan counts it: the line feeds of a string are characters like any other. -/
def counted (s : Stretch) : Stretch :=
  if s.isString then { s with source := s.source.map fun c => if c = '\n' then ' ' else c } else s

end Stretch

theorem befores_last (before : List Char) (ss : List Stretch) :
    (Stretch.befores before ss).getLast? = some (before ++ Stretch.text ss) := by
  induction ss generalizing before with
  | nil => exact congrArg some (List.append_nil before).symm
  | cons s ss ih =>
    rw [Stretch.befores, List.getLast?_append, ih, List.append_assoc]
    rfl

/-! ## Line feeds in lexemes -/

theorem digits_unbroken {ds : List Char} (h : Digits ds) : '\n' ∉ ds := fun hmem => by cases h.all _ hmem

theorem fraction_unbroken {f : List Char} (h : Fraction f) : '\n' ∉ f := by
  cases h with
  | none => exact List.not_mem_nil
  | places hds => exact fun hmem => digits_unbroken hds ((List.mem_cons.mp hmem).resolve_left (by decide))

theorem exponent_unbroken {e : List Char} (h : Exponent e) : '\n' ∉ e := by
  cases h with
  | none => exact List.not_mem_nil
  | @power c sign ds hc hsign hds =>
    have hfirst : '\n' ≠ c := by rcases hc with rfl | rfl <;> decide
    have hplain : '\n' ∉ sign := by rcases hsign with rfl | rfl | rfl <;> decide
    intro hmem
    rcases List.mem_append.mp ((List.mem_cons.mp hmem).resolve_left hfirst) with hmem | hmem
    · exact hplain hmem
    · exact digits_unbroken hds hmem

theorem wordLexeme_ne_newline (s : String) : wordLexeme s ≠ .newline := by
  unfold wordLexeme
  split
  · exact nofun
  · exact nofun

/-- No lexeme holds a line feed, except for strings and the line feed itself. -/
theorem Spelled.unbroken {p : List Char} {l : Lexeme} (h : Spelled p l) (hn : l ≠ .newline)
    (hs : ∀ s, l ≠ .string s) : '\n' ∉ p := by
  cases h with
  | feed => exact absurd rfl hn
  | @word c u hc hu =>
    intro hmem
    rcases List.mem_cons.mp hmem with rfl | hmem
    · cases hc
    · cases hu _ hmem
  | numeral hd hf he =>
    intro hmem
    rcases List.mem_append.mp hmem with hmem | hmem
    · exact digits_unbroken hd hmem
    · rcases List.mem_append.mp hmem with hmem | hmem
      · exact fraction_unbroken hf hmem
      · exact exponent_unbroken he hmem
  | string => exact absurd rfl (hs _)
  | symbol s => exact s.text_feed

theorem Spelled.feed_alone {p : List Char} {l : Lexeme} (h : Spelled p l) (hl : l = .newline) : p = ['\n'] := by
  cases h with
  | feed => rfl
  | word => exact absurd hl (wordLexeme_ne_newline _)
  | numeral | string | symbol => cases hl

/-- A line feed in a string comes right after a backslash. -/
theorem Quoted.feed_escaped {quote : Char} (hq : quote ≠ '\n') {cs body u v : List Char} (h : Quoted quote cs body)
    (hcs : cs = u ++ '\n' :: v) : u.getLast? = some '\\' := by
  induction h generalizing u with
  | close =>
    cases u with
    | nil => exact absurd (List.cons.inj hcs).1 hq
    | cons c u =>
      have hnil : [] = u ++ '\n' :: v := (List.cons.inj hcs).2
      exact absurd hnil.symm (List.append_ne_nil_of_right_ne_nil u (List.cons_ne_nil _ _))
  | plain _ _ hfeed _ ih =>
    cases u with
    | nil => exact absurd (List.cons.inj hcs).1 hfeed
    | cons c u => rw [List.getLast?_cons, ih (List.cons.inj hcs).2]; rfl
  | escape c _ ih =>
    match u with
    | [] => cases (List.cons.inj hcs).1
    | [d] =>
      rw [← (List.cons.inj hcs).1]
      rfl
    | d :: d' :: u =>
      have hrest := (List.cons.inj (List.cons.inj hcs).2).2
      rw [List.getLast?_cons, List.getLast?_cons, ih hrest]
      rfl

theorem Spelled.feed_escaped {p u v : List Char} {s : String} (h : Spelled p (.string s)) (hp : p = u ++ '\n' :: v) :
    u.getLast? = some '\\' := by
  generalize hl : Lexeme.string s = l at h
  cases h with
  | feed | numeral | symbol => cases hl
  | @word c u' =>
    have hword : wordLexeme (String.ofList (c :: u')) ≠ .string s := by
      unfold wordLexeme
      split
      · exact nofun
      · exact nofun
    exact absurd hl.symm hword
  | @string quote cs body hq hbody =>
    have hne := (Quoted.quote_ne hq).1
    cases u with
    | nil => exact absurd (List.cons.inj hp).1 hne
    | cons d u => rw [List.getLast?_cons, hbody.feed_escaped hne (List.cons.inj hp).2]; rfl

/-! ## Stretches as they are counted -/

theorem counted_string {s : Stretch} (h : s.isString = true) :
    s.counted.source = s.source.map fun c => if c = '\n' then ' ' else c := by
  rw [Stretch.counted, if_pos h]

theorem counted_other {s : Stretch} (h : s.isString = false) : s.counted = s := by
  rw [Stretch.counted, if_neg (by rw [h]; decide)]

theorem counted_lexeme (s : Stretch) : s.counted.lexeme? = s.lexeme? := by
  unfold Stretch.counted
  split
  · rfl
  · rfl

theorem blotted_unbroken (cs : List Char) : '\n' ∉ cs.map fun c => if c = '\n' then ' ' else c := by
  intro h
  obtain ⟨c, -, hc⟩ := List.mem_map.mp h
  split at hc
  · cases hc
  · exact absurd hc ‹_›

/-- A stretch is a line feed of its own, or is counted without one. -/
structure Plain (s : Stretch) : Prop where
  source : s.source ≠ ['\n']
  unbroken : '\n' ∉ s.counted.source
  length : s.counted.source.length = s.source.length

theorem plain_other {s : Stretch} (hs : s.isString = false) (h : '\n' ∉ s.source) : Plain s := by
  refine ⟨fun he => h (he ▸ List.mem_singleton.mpr rfl), ?_, ?_⟩
  · rw [counted_other hs]
    exact h
  · rw [counted_other hs]

theorem plain_string {s : Stretch} (hs : s.isString = true) (h : s.source ≠ ['\n']) : Plain s := by
  refine ⟨h, ?_, ?_⟩
  · rw [counted_string hs]
    exact blotted_unbroken _
  · rw [counted_string hs, List.length_map]

theorem Spelled.plain {p : List Char} {l : Lexeme} (h : Spelled p l) :
    p = ['\n'] ∧ l = .newline ∨ Plain ⟨p, some l⟩ := by
  cases l with
  | newline => exact .inl ⟨h.feed_alone rfl, rfl⟩
  | string s =>
    refine .inr (plain_string rfl fun he => ?_)
    -- a string begins with a quote
    have hlast := h.feed_escaped (u := []) (v := []) he
    cases hlast
  | number | ident | keyword | symbol => exact .inr (plain_other rfl (h.unbroken nofun nofun))

theorem Laid.cons_plain {depth : Nat} {s : Stretch} {ss : List Stretch} (h : Laid depth (s :: ss)) :
    (s.source = ['\n'] ∧ s.isString = false ∨ Plain s) ∧ ∃ depth', Laid depth' ss := by
  cases h with
  | blank hc hss =>
    refine ⟨.inr (plain_other rfl ?_), _, hss⟩
    rcases hc with rfl | rfl | rfl <;> decide
  | comment hcs _ hss =>
    refine ⟨.inr (plain_other rfl fun hmem => ?_), _, hss⟩
    exact hcs ((List.mem_cons.mp hmem).resolve_left (by decide))
  | feed _ hss => exact ⟨.inl ⟨rfl, rfl⟩, _, hss⟩
  | lexeme hfits hss =>
    refine ⟨?_, _, hss⟩
    rcases hfits.spelled.plain with ⟨rfl, rfl⟩ | hplain
    · exact .inl ⟨rfl, rfl⟩
    · exact .inr hplain

/-- The scan goes on where the text goes on that it counts. -/
theorem advance_counted {s : Stretch} (h : s.source = ['\n'] ∧ s.isString = false ∨ Plain s) (before : List Char) :
    s.advance (.after before) = .after (before ++ s.counted.source) := by
  rcases h with ⟨hfeed, hs⟩ | hplain
  · rw [counted_other hs, Stretch.advance, if_pos hfeed, hfeed, after_feed]
  · rw [Stretch.advance, if_neg hplain.source, after_line before hplain.unbroken, hplain.length]

theorem Laid.spelled {depth : Nat} {ss : List Stretch} (h : Laid depth ss) :
    ∀ s ∈ ss, ∀ l, s.lexeme? = some l → Spelled s.source l := by
  induction h with
  | nil => exact nofun
  | blank _ _ ih | comment _ _ _ ih | feed _ _ ih => exact List.forall_mem_cons.mpr ⟨nofun, ih⟩
  | lexeme hfits _ ih =>
    refine List.forall_mem_cons.mpr ⟨fun l hl => ?_, ih⟩
    rw [← Option.some.inj hl]
    exact hfits.spelled

theorem isString_iff {s : Stretch} : s.isString = true ↔ ∃ t, s.lexeme? = some (.string t) := by
  unfold Stretch.isString
  constructor
  · intro h
    split at h
    · exact ⟨_, ‹_›⟩
    · cases h
  · rintro ⟨t, ht⟩
    rw [ht]

/-- The scan tells the true positions of the text that it counts. -/
theorem Laid.counts {depth : Nat} {ss : List Stretch} (h : Laid depth ss) (before : List Char) :
    Stretch.places (.after before) ss = (Stretch.befores before (ss.map Stretch.counted)).map Position.after := by
  induction ss generalizing depth before with
  | nil => rfl
  | cons s ss ih =>
    obtain ⟨hs, depth', hss⟩ := h.cons_plain
    rw [Stretch.places, List.map_cons, Stretch.befores, List.map_append, advance_counted hs, ih hss, counted_lexeme]
    cases s.lexeme? <;> rfl

/-! ## True positions -/

/-- The counted text has fewer line feeds, unless no string holds one. -/
theorem counted_fewer (ss : List Stretch) :
    (Stretch.text (ss.map Stretch.counted)).count '\n' ≤ (Stretch.text ss).count '\n' ∧
      ((Stretch.text (ss.map Stretch.counted)).count '\n' = (Stretch.text ss).count '\n' →
        ∀ s ∈ ss, s.isString = true → '\n' ∉ s.source) := by
  induction ss with
  | nil => exact ⟨Nat.le_refl _, fun _ => nofun⟩
  | cons s ss ih =>
    obtain ⟨hle, hnone⟩ := ih
    have hcount : ∀ s : Stretch, ∀ ss, (Stretch.text (s :: ss)).count '\n' =
        s.source.count '\n' + (Stretch.text ss).count '\n' := fun s ss => List.count_append
    rw [List.map_cons, hcount, hcount]
    cases hs : s.isString with
    | false =>
      rw [counted_other hs]
      refine ⟨Nat.add_le_add_left hle _, fun heq => List.forall_mem_cons.mpr ⟨fun hs' => ?_, ?_⟩⟩
      · rw [hs] at hs'
        cases hs'
      · exact hnone (Nat.add_left_cancel heq)
    | true =>
      rw [counted_string hs, List.count_eq_zero.mpr (blotted_unbroken _), Nat.zero_add]
      refine ⟨Nat.le_add_left_of_le hle, fun heq => ?_⟩
      have hzero : s.source.count '\n' = 0 := by omega
      exact List.forall_mem_cons.mpr ⟨fun _ => List.count_eq_zero.mp hzero, hnone (by omega)⟩

theorem counted_same {ss : List Stretch} (h : ∀ s ∈ ss, s.isString = true → '\n' ∉ s.source) :
    ss.map Stretch.counted = ss := by
  refine (List.map_congr_left fun s hs => ?_).trans (List.map_id ss)
  cases hstring : s.isString with
  | false => exact counted_other hstring
  | true =>
    have hblots : s.source.map (fun c => if c = '\n' then ' ' else c) = s.source := by
      refine (List.map_congr_left fun c hc => if_neg ?_).trans (List.map_id _)
      rintro rfl
      exact h s hs hstring hc
    rw [Stretch.counted, if_pos hstring, hblots]
    rfl

/-- Positions end with that of the end of the text. -/
theorem truePlaces_last (ss : List Stretch) :
    (Stretch.truePlaces ss).getLast? = some (.after (Stretch.text ss)) := by
  rw [Stretch.truePlaces, List.getLast?_map, befores_last, List.nil_append]
  rfl

theorem counted_places_iff (ss : List Stretch) :
    Stretch.truePlaces (ss.map Stretch.counted) = Stretch.truePlaces ss ↔
      ∀ s ∈ ss, s.isString = true → '\n' ∉ s.source := by
  constructor
  · intro h
    have hlast := congrArg List.getLast? h
    rw [truePlaces_last, truePlaces_last] at hlast
    have hlines := congrArg Position.line (Option.some.inj hlast)
    exact (counted_fewer ss).2 (Nat.add_left_cancel hlines)
  · intro h
    rw [counted_same h]

/-- The positions of tokens are true but for the line feeds in strings, which are not counted.
    Those come right after a backslash; and exactly if there are any, some position is not true. -/
theorem positions_but_for_strings {text : String} {ts : Tokens} (h : scan text = .ok ts) :
    ∃ ss, Laid 0 ss ∧ Stretch.text ss = text.toList ∧ Stretch.lexemes ss = words ts.list ∧
      ts.places = Stretch.truePlaces (ss.map Stretch.counted) ∧
      (∀ s ∈ ss, s.isString = true → ∀ u v, s.source = u ++ '\n' :: v → u.getLast? = some '\\') ∧
      (ts.places = Stretch.truePlaces ss ↔ ∀ s ∈ ss, s.isString = true → '\n' ∉ s.source) := by
  obtain ⟨ss, hlaid, htext, hwords, hplaces⟩ := scanFrom_laid text.toList (scan_length h) (scan_ok h)
  have hcounts : ts.places = Stretch.truePlaces (ss.map Stretch.counted) := hplaces.symm.trans (hlaid.counts [])
  refine ⟨ss, hlaid, htext, hwords, hcounts, ?_, ?_⟩
  · intro s hs hstring u v hsource
    obtain ⟨t, ht⟩ := isString_iff.mp hstring
    exact (hlaid.spelled s hs _ ht).feed_escaped hsource
  · rw [hcounts]
    exact counted_places_iff ss

theorem positions_after_a_continued_string :
    let text := "a = 'b\\\nc'\nd"
    let ts : Tokens :=
      ⟨[⟨.ident "a", ⟨1, 1⟩⟩, ⟨.symbol .assign, ⟨1, 3⟩⟩, ⟨.string "b\\\nc", ⟨1, 5⟩⟩, ⟨.newline, ⟨1, 11⟩⟩,
        ⟨.ident "d", ⟨2, 1⟩⟩], ⟨2, 2⟩⟩
    scan text = .ok ts ∧
      ∃ ss, Laid 0 ss ∧ Stretch.text ss = text.toList ∧ Stretch.lexemes ss = words ts.list ∧
        ts.places = Stretch.truePlaces (ss.map Stretch.counted) ∧
        (∀ s ∈ ss, s.isString = true → ∀ u v, s.source = u ++ '\n' :: v → u.getLast? = some '\\') ∧
        (ts.places = Stretch.truePlaces ss ↔ ∀ s ∈ ss, s.isString = true → '\n' ∉ s.source) := by
  intro text ts
  have hscan : scan text = .ok ts := by cbv
  exact ⟨hscan, positions_but_for_strings hscan⟩

/-- The first four characters are a string that holds a line feed. The name after it stands in
    the second line, but its position is in the first one; whatever the text is made up of, its
    true positions are others. -/
theorem line_feed_goes_uncounted :
    let text := "'\\\n' x"
    let ts : Tokens := ⟨[⟨.string "\\\n", ⟨1, 1⟩⟩, ⟨.ident "x", ⟨1, 6⟩⟩], ⟨1, 7⟩⟩
    scan text = .ok ts ∧ Spelled (text.toList.take 4) (.string "\\\n") ∧ '\n' ∈ text.toList.take 4 ∧
      text.toList.drop 5 = ['x'] ∧ Position.after (text.toList.take 5) = ⟨2, 3⟩ ∧
      ∀ ss, Stretch.text ss = text.toList → ts.places ≠ Stretch.truePlaces ss := by
  intro text ts
  have hscan : scan text = .ok ts := by cbv
  have htext : text.toList = '\'' :: ['\\', '\n', '\''] ++ [' ', 'x'] := by decide
  refine ⟨hscan, ?_, by decide, by decide, by decide, fun ss hss h => ?_⟩
  · rw [htext]
    exact .string (.inl rfl) (.escape '\n' .close)
  · have hlast := congrArg List.getLast? h
    rw [truePlaces_last, hss, htext] at hlast
    cases hlast

end StepFlow.Script
