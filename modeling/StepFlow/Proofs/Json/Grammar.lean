/-
  StepFlow.Proofs.Json.Grammar — which texts are JSON, and that the reader takes those and no others.

  The grammar is the standard's, rule by rule, with the words NaN, Infinity and -Infinity and with
  lone halves of characters in strings. It says what a text stands for, and which numerals it may
  have (`P`). The reader refuses one thing of the standard: a whole number of more digits than the
  limit (`Written.Short`), wherever it stands. A text that may have such numbers is read or fails
  in that way (`Yields`), and a reader that fails in that way has come upon as many digits on end
  (`Reads`).

  Proved:
  - `read_text`: what is read is what the text stands for, and no number of it is too long.
  - `text_read`: a text of the grammar is read, if no number of it is too long.
  - `read_tooLong`: the reader stops at a number only if the text has so many digits on end.
-/

import StepFlow.Proofs.Json.RoundTrip

namespace StepFlow.Json

/-! ## The grammar -/

def Blank (ws : List Char) : Prop := ∀ c ∈ ws, isSpace c = true

/-- The letters of escapes, with what they stand for. -/
def escapes : List (Char × Char) :=
  [('"', '"'), ('\\', '\\'), ('/', '/'), ('b', '\x08'), ('f', '\x0c'), ('n', '\n'), ('r', '\r'), ('t', '\t')]

/-- The texts between two quotes. -/
inductive PartsText : List Part → List Char → Prop
  | nil : PartsText [] []
  | plain {c : Char} {parts : List Part} {cs : List Char} (hc : c ≠ '"' ∧ c ≠ '\\' ∧ 32 ≤ c.toNat)
      (h : PartsText parts cs) : PartsText (.char c :: parts) (c :: cs)
  | escape {c e : Char} {parts : List Part} {cs : List Char} (hc : (c, e) ∈ escapes) (h : PartsText parts cs) :
      PartsText (.char e :: parts) ('\\' :: c :: cs)
  | code {a b c d : Char} {n : Nat} {parts : List Part} {cs : List Char} (hn : hexCode? [a, b, c, d] = some n)
      (h : PartsText parts cs) : PartsText (.code n :: parts) ('\\' :: 'u' :: a :: b :: c :: d :: cs)

inductive StringText : String → List Char → Prop
  | mk {parts : List Part} {cs : List Char} (h : PartsText parts cs) :
      StringText (String.ofList (joined parts)) ('"' :: (cs ++ ['"']))

/-- The number of a numeral: whole without places and exponent, else a double. -/
def Written.number (w : Written) : Json :=
  match w.places, w.exponent with
  | [], none =>
    let n : Int := Numeral.natOf 10 w.whole
    .int (if w.negative then -n else n)
  | places, e =>
    .float (Numeral.ofDecimal w.negative (Numeral.natOf 10 (w.whole ++ places)) (e.getD 0 - places.length))

/-- No whole number of more digits than can be read. -/
def Written.Short (w : Written) : Prop := w.places = [] → w.exponent = none → w.whole.length ≤ Decimal.digitLimit

mutual

inductive ValueText (P : Written → Prop) : Json → List Char → Prop
  | word {j : Json} {cs : List Char} (h : (cs, j) ∈ words) : ValueText P j cs
  | number {w : Written} {cs : List Char} (h : Spelled w cs) (hw : P w) : ValueText P w.number cs
  | string {s : String} {cs : List Char} (h : StringText s cs) : ValueText P (.str s) cs
  | noItems {ws : List Char} (hws : Blank ws) : ValueText P (.arr []) ('[' :: (ws ++ [']']))
  | items {js : List Json} {cs : List Char} (h : ElementsText P js cs) : ValueText P (.arr js) ('[' :: (cs ++ [']']))
  | noMembers {ws : List Char} (hws : Blank ws) : ValueText P (.obj []) ('\x7b' :: (ws ++ ['\x7d']))
  | members {ms : List (String × Json)} {cs : List Char} (h : MembersText P ms cs) :
      ValueText P (.obj (merged ms)) ('\x7b' :: (cs ++ ['\x7d']))

/-- A value with blanks around it. -/
inductive ElementText (P : Written → Prop) : Json → List Char → Prop
  | mk {j : Json} {ws cs vs : List Char} (hws : Blank ws) (h : ValueText P j cs) (hvs : Blank vs) :
      ElementText P j (ws ++ (cs ++ vs))

inductive ElementsText (P : Written → Prop) : List Json → List Char → Prop
  | one {j : Json} {cs : List Char} (h : ElementText P j cs) : ElementsText P [j] cs
  | more {j : Json} {js : List Json} {cs ds : List Char} (h : ElementText P j cs) (hs : ElementsText P js ds) :
      ElementsText P (j :: js) (cs ++ ',' :: ds)

inductive MemberText (P : Written → Prop) : String × Json → List Char → Prop
  | mk {name : String} {j : Json} {ws ns vs cs : List Char} (hws : Blank ws) (hname : StringText name ns)
      (hvs : Blank vs) (h : ElementText P j cs) : MemberText P (name, j) (ws ++ (ns ++ (vs ++ ':' :: cs)))

inductive MembersText (P : Written → Prop) : List (String × Json) → List Char → Prop
  | one {m : String × Json} {cs : List Char} (h : MemberText P m cs) : MembersText P [m] cs
  | more {m : String × Json} {ms : List (String × Json)} {cs ds : List Char} (h : MemberText P m cs)
      (hs : MembersText P ms ds) : MembersText P (m :: ms) (cs ++ ',' :: ds)

end

/-- The text is JSON, with such numbers only, and stands for the document. -/
def IsText (P : Written → Prop) (text : String) (j : Json) : Prop := ElementText P j text.toList

/-- The text is JSON, with whatever numbers. -/
def IsJson (text : String) : Prop := ∃ j, IsText (fun _ => True) text j

variable {P : Written → Prop}

variable {Q : Written → Prop}

mutual

/-- More numbers are allowed. -/
theorem ValueText.mono (hPQ : ∀ w, P w → Q w) {j : Json} {text : List Char} : ValueText P j text → ValueText Q j text
  | .word h => .word h
  | .number h hw => .number h (hPQ _ hw)
  | .string h => .string h
  | .noItems hws => .noItems hws
  | .items h => .items (h.mono hPQ)
  | .noMembers hws => .noMembers hws
  | .members h => .members (h.mono hPQ)

theorem ElementText.mono (hPQ : ∀ w, P w → Q w) {j : Json} {text : List Char} :
    ElementText P j text → ElementText Q j text
  | .mk hws h hvs => .mk hws (h.mono hPQ) hvs

theorem ElementsText.mono (hPQ : ∀ w, P w → Q w) {js : List Json} {text : List Char} :
    ElementsText P js text → ElementsText Q js text
  | .one h => .one (h.mono hPQ)
  | .more h hs => .more (h.mono hPQ) (hs.mono hPQ)

theorem MemberText.mono (hPQ : ∀ w, P w → Q w) {m : String × Json} {text : List Char} :
    MemberText P m text → MemberText Q m text
  | .mk hws hname hvs h => .mk hws hname hvs (h.mono hPQ)

theorem MembersText.mono (hPQ : ∀ w, P w → Q w) {ms : List (String × Json)} {text : List Char} :
    MembersText P ms text → MembersText Q ms text
  | .one h => .one (h.mono hPQ)
  | .more h hs => .more (h.mono hPQ) (hs.mono hPQ)

end

theorem isJson_of_text {text : String} {j : Json} (h : IsText P text j) : IsJson text :=
  ⟨j, ElementText.mono (fun _ _ => trivial) h⟩

/-! ## Blanks -/

theorem blank_append {ws vs : List Char} (hws : Blank ws) (hvs : Blank vs) : Blank (ws ++ vs) :=
  List.forall_mem_append.mpr ⟨hws, hvs⟩

theorem skip_eq (cs : List Char) : ∃ ws, Blank ws ∧ cs = ws ++ skip cs :=
  ⟨cs.takeWhile isSpace, fun _ hc => List.mem_takeWhile_imp hc, List.takeWhile_append_dropWhile.symm⟩

theorem skip_blank {ws : List Char} (hws : Blank ws) (cs : List Char) : skip (ws ++ cs) = skip cs :=
  List.dropWhile_append_of_pos hws

theorem ElementText.lead {j : Json} {ws cs : List Char} (hws : Blank ws) (h : ElementText P j cs) :
    ElementText P j (ws ++ cs) := by
  obtain ⟨hvs, hvalue, htail⟩ := h
  rw [← List.append_assoc]
  exact .mk (blank_append hws hvs) hvalue htail

theorem ElementsText.lead {js : List Json} {ws cs : List Char} (hws : Blank ws) (h : ElementsText P js cs) :
    ElementsText P js (ws ++ cs) := by
  cases h with
  | one h => exact .one (h.lead hws)
  | more h hs =>
    rw [← List.append_assoc]
    exact .more (h.lead hws) hs

theorem MemberText.lead {m : String × Json} {ws cs : List Char} (hws : Blank ws) (h : MemberText P m cs) :
    MemberText P m (ws ++ cs) := by
  obtain ⟨hvs, hname, hcolon, helement⟩ := h
  rw [← List.append_assoc]
  exact .mk (blank_append hws hvs) hname hcolon helement

theorem MembersText.lead {ms : List (String × Json)} {ws cs : List Char} (hws : Blank ws) (h : MembersText P ms cs) :
    MembersText P ms (ws ++ cs) := by
  cases h with
  | one h => exact .one (h.lead hws)
  | more h hs =>
    rw [← List.append_assoc]
    exact .more (h.lead hws) hs

/-! ## Numbers -/

theorem Written.json_short {w : Written} (h : w.Short) : w.json = .ok w.number := by
  obtain ⟨negative, whole, places, exponent⟩ := w
  cases places with
  | cons d ds => rfl
  | nil => cases exponent with
    | some e => rfl
    | none => exact if_neg (Nat.not_lt.mpr (h rfl rfl))

theorem Written.json_long {w : Written} (h : ¬ w.Short) :
    w.json = .error (.tooLong w.whole.length) ∧ Decimal.digitLimit < w.whole.length := by
  obtain ⟨negative, whole, places, exponent⟩ := w
  unfold Written.Short at h
  push Not at h
  obtain ⟨rfl, rfl, hlen⟩ := h
  exact ⟨if_pos hlen, hlen⟩

theorem takeWhile_eq (cs : List Char) :
    (∀ c ∈ cs.takeWhile Char.isDigit, c.isDigit = true) ∧
      cs = cs.takeWhile Char.isDigit ++ cs.drop (cs.takeWhile Char.isDigit).length := by
  refine ⟨fun _ hc => List.mem_takeWhile_imp hc, ?_⟩
  have hprefix := List.prefix_iff_eq_append.mp (List.takeWhile_prefix Char.isDigit (l := cs))
  exact hprefix.symm

theorem wholeDigits_eq (cs : List Char) :
    (∀ c ∈ wholeDigits cs, c.isDigit = true) ∧ cs = wholeDigits cs ++ cs.drop (wholeDigits cs).length ∧
      (wholeDigits cs ≠ [] → wholeDigits cs = ['0'] ∨ ∃ d ds, wholeDigits cs = d :: ds ∧ d ≠ '0') := by
  unfold wholeDigits
  split
  · exact ⟨by simp, rfl, fun _ => .inl rfl⟩
  · rename_i hzero
    obtain ⟨hdigits, heq⟩ := takeWhile_eq cs
    refine ⟨hdigits, heq, fun hne => ?_⟩
    obtain ⟨d, ds, hcons⟩ := List.exists_cons_of_ne_nil hne
    refine .inr ⟨d, ds, hcons, ?_⟩
    rintro rfl
    rw [hcons] at heq
    exact hzero _ heq

theorem placeDigits_eq (cs : List Char) :
    (∀ c ∈ placeDigits cs, c.isDigit = true) ∧
      cs = pointText (placeDigits cs) ++
        if (placeDigits cs).isEmpty then cs else cs.drop ((placeDigits cs).length + 1) := by
  unfold placeDigits
  split
  · rename_i cs
    obtain ⟨hdigits, heq⟩ := takeWhile_eq cs
    refine ⟨hdigits, ?_⟩
    cases hds : cs.takeWhile Char.isDigit with
    | nil => rfl
    | cons d ds =>
      rw [hds] at heq
      exact congrArg ('.' :: ·) heq
  · exact ⟨by simp, rfl⟩

theorem readExponent_eq {negative : Bool} {signs : Nat} {cs : List Char} {e : Int} {n : Nat}
    (h : readExponent negative signs cs = some (e, n)) :
    ∃ ds, (∀ d ∈ ds, d.isDigit = true) ∧ ds ≠ [] ∧ cs = ds ++ cs.drop ds.length ∧ n = 1 + signs + ds.length ∧
      e = if negative then -(Numeral.natOf 10 ds : Int) else Numeral.natOf 10 ds := by
  obtain ⟨hdigits, heq⟩ := takeWhile_eq cs
  unfold readExponent at h
  dsimp only at h
  split at h
  · cases h
  · rename_i hne
    cases h
    exact ⟨_, hdigits, fun hnil => hne (List.isEmpty_iff.mpr hnil), heq, rfl, rfl⟩

theorem exponent?_eq {cs : List Char} {e : Int} {n : Nat} (h : exponent? cs = some (e, n)) :
    ∃ text, ExponentText (some e) text ∧ cs = text ++ cs.drop n := by
  cases cs with
  | nil => cases h
  | cons c cs =>
    by_cases hE : c = 'e' ∨ c = 'E'
    · -- the sign, with the digits after it
      obtain ⟨negative, sign, ds, rfl, hsign, hds⟩ : ∃ negative sign ds, cs = sign ++ ds ∧
          (negative, sign) ∈ [(true, ['-']), (false, ['+']), (false, [])] ∧
          (sign = [] → ds.head? ≠ some '-' ∧ ds.head? ≠ some '+') := by
        by_cases hminus : cs.head? = some '-'
        · obtain ⟨ds, rfl⟩ := List.head?_eq_some_iff.mp hminus
          exact ⟨true, ['-'], ds, rfl, by simp, nofun⟩
        · by_cases hplus : cs.head? = some '+'
          · obtain ⟨ds, rfl⟩ := List.head?_eq_some_iff.mp hplus
            exact ⟨false, ['+'], ds, rfl, by simp, nofun⟩
          · exact ⟨false, [], cs, rfl, by simp, fun _ => ⟨hminus, hplus⟩⟩
      rw [exponent?_signed hE hsign hds] at h
      obtain ⟨digits, hdigits, hne, heq, rfl, rfl⟩ := readExponent_eq h
      refine ⟨_, .present hE hsign hdigits hne, ?_⟩
      have hdrop : (c :: (sign ++ ds)).drop (1 + sign.length + digits.length) = ds.drop digits.length := by
        rw [Nat.add_assoc, Nat.add_comm, List.drop_succ_cons, ← List.drop_drop, List.drop_left]
      rw [hdrop, List.cons_append, List.append_assoc, ← heq]
    · rw [exponent?_none] at h
      · cases h
      · intro d hd
        cases hd
        exact not_or.mp hE

theorem readUnsigned_eq {negative : Bool} {cs rest : List Char} {w : Written}
    (h : readUnsigned negative cs = some (w, rest)) :
    w.negative = negative ∧ w.Plain ∧ ∃ e, ExponentText w.exponent e ∧
      cs = w.whole ++ (pointText w.places ++ (e ++ rest)) := by
  obtain ⟨hwhole, hwholeEq, hbegins⟩ := wholeDigits_eq cs
  obtain ⟨hplaces, hplacesEq⟩ := placeDigits_eq (cs.drop (wholeDigits cs).length)
  unfold readUnsigned at h
  dsimp only at h
  split at h
  · cases h
  · rename_i hne
    have hplain := hbegins fun hnil => hne (List.isEmpty_iff.mpr hnil)
    split at h
    · rename_i e n hexp
      obtain ⟨text, htext, heq⟩ := exponent?_eq hexp
      cases h
      refine ⟨rfl, ⟨hwhole, hplain, hplaces⟩, text, htext, ?_⟩
      rw [← heq, ← hplacesEq]
      exact hwholeEq
    · cases h
      refine ⟨rfl, ⟨hwhole, hplain, hplaces⟩, [], .absent, ?_⟩
      rw [List.nil_append, ← hplacesEq]
      exact hwholeEq

/-- What is read as a numeral is a text of it. -/
theorem readWritten_eq {cs rest : List Char} {w : Written} (h : readWritten cs = some (w, rest)) :
    ∃ text, cs = text ++ rest ∧ Spelled w text := by
  obtain ⟨negative, body, rfl, hread⟩ : ∃ negative body, cs = signText negative ++ body ∧
      readUnsigned negative body = some (w, rest) := by
    cases cs with
    | nil => exact ⟨false, [], rfl, h⟩
    | cons c cs =>
      by_cases hc : c = '-'
      · subst hc
        exact ⟨true, cs, rfl, h⟩
      · exact ⟨false, c :: cs, rfl, (readWritten_other hc cs).symm.trans h⟩
  obtain ⟨rfl, hw, e, he, rfl⟩ := readUnsigned_eq hread
  refine ⟨_, ?_, .mk hw he⟩
  simp only [List.append_assoc]

/-! ## What is read is in the grammar -/

/-- So many digits on end, more than a whole number may have. -/
def LongRun (n : Nat) (cs : List Char) : Prop :=
  Decimal.digitLimit < n ∧ ∃ ds, ds <:+: cs ∧ ds.length = n ∧ ∀ d ∈ ds, d.isDigit = true

theorem LongRun.mono {n : Nat} {cs ds : List Char} (h : LongRun n cs) (hcs : cs <:+: ds) : LongRun n ds := by
  obtain ⟨hn, run, hrun, hlen, hdigits⟩ := h
  exact ⟨hn, run, hrun.trans hcs, hlen, hdigits⟩

section Reads

variable {α β : Type} {A : α → List Char → Prop} {B : β → List Char → Prop} {cs : List Char}
  {r : Except Fault (α × List Char)}

/-- What a reader makes of the characters: something that the first of them are a text of, with
    the characters left, or a fault, at a number only if it is too long. -/
def Reads (A : α → List Char → Prop) (cs : List Char) : Except Fault (α × List Char) → Prop
  | .ok (a, rest) => ∃ text, cs = text ++ rest ∧ A a text
  | .error (.tooLong n) => LongRun n cs
  | .error (.malformed _ _) => True

theorem Reads.mono {A' : α → List Char → Prop} (h : Reads A cs r) (hA : ∀ a text, A a text → A' a text) :
    Reads A' cs r := by
  match r, h with
  | .ok (a, rest), h =>
    obtain ⟨text, rfl, ha⟩ := h
    exact ⟨text, rfl, hA a text ha⟩
  | .error (.tooLong n), h => exact h
  | .error (.malformed cause left), _ => trivial

/-- The characters before those that are read. -/
theorem Reads.after (text : List Char) (h : Reads (fun a t => A a (text ++ t)) cs r) : Reads A (text ++ cs) r := by
  match r, h with
  | .ok (a, rest), h =>
    obtain ⟨t, rfl, ha⟩ := h
    exact ⟨text ++ t, (List.append_assoc ..).symm, ha⟩
  | .error (.tooLong n), h => exact LongRun.mono h (List.suffix_append text cs).isInfix
  | .error (.malformed cause left), _ => trivial

/-- One reader after the other. -/
theorem Reads.bind {f : α × List Char → Except Fault (β × List Char)} (h : Reads A cs r)
    (hf : ∀ a text rest, A a text → Reads (fun b t => B b (text ++ t)) rest (f (a, rest))) : Reads B cs (r >>= f) := by
  match r, h with
  | .ok (a, rest), h =>
    obtain ⟨text, rfl, ha⟩ := h
    exact (hf a text rest ha).after
  | .error (.tooLong n), h => exact h
  | .error (.malformed cause left), _ => trivial

theorem reads_ok {a : α} (text : List Char) (h : A a text) (rest : List Char) :
    Reads A (text ++ rest) (.ok (a, rest)) :=
  ⟨text, rfl, h⟩

theorem reads_skip (h : ∀ ws, Blank ws → Reads (fun a t => A a (ws ++ t)) (skip cs) r) : Reads A cs r := by
  obtain ⟨ws, hws, heq⟩ := skip_eq cs
  rw [heq]
  exact (h ws hws).after

end Reads

theorem escaped?_eq {c e : Char} (h : escaped? c = some e) : (c, e) ∈ escapes := by
  unfold escaped? at h
  split at h
  · rename_i hc
    cases h
    simp only [Bool.or_eq_true, beq_iff_eq] at hc
    rcases hc with (rfl | rfl) | rfl <;> decide
  · repeat' split at h
    all_goals cases h
    all_goals
      rename_i hc
      rw [beq_iff_eq.mp hc]
      decide

/-- The texts of `A`, up to a character that closes them. -/
def Closed {α : Type} (A : α → List Char → Prop) (close : Char) (a : α) (t : List Char) : Prop :=
  ∃ text, t = text ++ [close] ∧ A a text

theorem Closed.lead {α : Type} {A : α → List Char → Prop} {close : Char} {a b : α} {t front : List Char}
    (h : Closed A close a t) (hA : ∀ text, A a text → A b (front ++ text)) : Closed A close b (front ++ t) := by
  obtain ⟨text, rfl, ha⟩ := h
  exact ⟨front ++ text, (List.append_assoc ..).symm, hA text ha⟩

theorem readParts_more {opening : Nat} (front : List Char) {cs : List Char} {p : Part}
    (h : Reads (Closed PartsText '"') cs (readParts opening cs))
    (hp : ∀ parts text, PartsText parts text → PartsText (p :: parts) (front ++ text)) :
    Reads (Closed PartsText '"') (front ++ cs) (do
      let (parts, rest) ← readParts opening cs
      pure (p :: parts, rest)) := by
  refine (h.bind fun parts text rest hparts => ?_).after front
  have hmore : Closed PartsText '"' (p :: parts) (front ++ text) := by
    obtain ⟨text, rfl, hparts⟩ := hparts
    exact ⟨front ++ text, (List.append_assoc ..).symm, hp parts text hparts⟩
  refine reads_ok [] ?_ rest
  rwa [List.append_nil]

theorem readParts_reads (opening : Nat) (cs : List Char) :
    Reads (Closed PartsText '"') cs (readParts opening cs) := by
  fun_induction readParts opening cs with
  | case1 => trivial
  | case2 cs => exact reads_ok ['"'] ⟨[], rfl, .nil⟩ cs
  | case3 => trivial
  | case4 a b c d n e cs hn ih =>
    exact readParts_more ['\\', 'u', a, b, c, d] ih fun parts text h => .code hn h
  | case5 => trivial
  | case6 => trivial
  | case7 c cs _ _ e he ih =>
    exact readParts_more ['\\', c] ih fun parts text h => .escape (escaped?_eq he) h
  | case8 => trivial
  | case9 => trivial
  | case10 c cs hquote hlast _ _ hescape hcontrol ih =>
    have hslash : c ≠ '\\' := by
      intro hc
      cases cs with
      | nil => exact hlast hc rfl
      | cons d ds => exact hescape d ds hc rfl
    exact readParts_more [c] ih fun parts text h => .plain ⟨hquote, hslash, Nat.le_of_not_lt hcontrol⟩ h

theorem readString_reads (cs : List Char) : Reads (fun s t => StringText s ('"' :: t)) cs (readString cs) := by
  refine (readParts_reads (cs.length + 1) cs).bind fun parts text rest hparts => ?_
  obtain ⟨text, rfl, hparts⟩ := hparts
  exact reads_ok [] (by rw [List.append_nil]; exact .mk hparts) rest

theorem readNumber_reads (cs : List Char) : Reads (ValueText Written.Short) cs (readNumber cs) := by
  unfold readNumber
  cases hread : readWritten cs with
  | none => trivial
  | some found =>
    obtain ⟨w, rest⟩ := found
    obtain ⟨text, rfl, hw⟩ := readWritten_eq hread
    by_cases hshort : w.Short
    · simp only [w.json_short hshort]
      exact ⟨text, rfl, .number hw hshort⟩
    · obtain ⟨hlong, hlen⟩ := w.json_long hshort
      simp only [hlong]
      obtain ⟨hplain, -⟩ := hw
      refine ⟨hlen, w.whole, ?_, rfl, hplain.whole⟩
      exact ⟨signText w.negative, _, by simp only [List.append_assoc]; rfl⟩

theorem readWord_eq {cs rest : List Char} {j : Json} (h : readWord cs = some (j, rest)) :
    ∃ text, cs = text ++ rest ∧ (text, j) ∈ words := by
  unfold readWord at h
  obtain ⟨w, hw, heq⟩ := Option.map_eq_some_iff.mp h
  cases heq
  have hfound : w.1.isPrefixOf cs = true := by simpa using List.find?_some hw
  have hprefix := List.isPrefixOf_iff_prefix.mp hfound
  exact ⟨w.1, (List.prefix_iff_eq_append.mp hprefix).symm, List.mem_of_find?_eq_some hw⟩

/-- A word or a number. -/
theorem readPlain_reads (cs : List Char) : Reads (ValueText Written.Short) cs
    (match readWord cs with
      | some r => .ok r
      | none => readNumber cs) := by
  cases hword : readWord cs with
  | none => exact readNumber_reads cs
  | some found =>
    obtain ⟨j, rest⟩ := found
    obtain ⟨text, rfl, h⟩ := readWord_eq hword
    exact reads_ok _ (.word h) rest

-- the recursion is the readers' own: on the room, which every container takes a unit of
mutual

theorem readValue_reads : ∀ (room : Nat) (cs : List Char), Reads (ValueText Written.Short) cs (readValue room cs)
  | 0, cs => trivial
  | room + 1, cs => by
    cases cs with
    | nil => exact readPlain_reads []
    | cons c cs =>
      by_cases hquote : c = '"'
      · subst hquote
        refine Reads.after ['"'] ((readString_reads cs).bind fun s text rest h => ?_)
        exact reads_ok [] (by rw [List.append_nil]; exact .string h) rest
      by_cases hlist : c = '['
      · subst hlist
        refine Reads.after ['['] (reads_skip fun ws hws => ?_)
        simp only [readValue]
        generalize skip cs = ds
        split
        · exact reads_ok [']'] (.noItems hws) _
        · refine (readItems_reads room _).bind fun js text rest h => reads_ok [] ?_ rest
          obtain ⟨text, rfl, h⟩ := h
          have hvalue := ValueText.items (h.lead hws)
          simpa using hvalue
      by_cases hobject : c = '\x7b'
      · subst hobject
        refine Reads.after ['\x7b'] (reads_skip fun ws hws => ?_)
        simp only [readValue]
        generalize skip cs = ds
        split
        · exact reads_ok ['\x7d'] (.noMembers hws) _
        · refine (readMembers_reads room _).bind fun ms text rest h => reads_ok [] ?_ rest
          obtain ⟨text, rfl, h⟩ := h
          have hvalue := ValueText.members (h.lead hws)
          simpa using hvalue
      · rw [readValue_other ⟨hquote, hlist, hobject⟩]
        exact readPlain_reads (c :: cs)

theorem readItems_reads : ∀ (room : Nat) (cs : List Char),
    Reads (Closed (ElementsText Written.Short) ']') cs (readItems room cs)
  | 0, cs => trivial
  | room + 1, cs => by
    refine (readValue_reads room cs).bind fun j text rest hj => reads_skip fun ws hws => ?_
    have helement : ElementText Written.Short j (text ++ ws) := .mk (List.forall_mem_nil _) hj hws
    dsimp only
    generalize skip rest = ds
    split
    · exact reads_ok [']'] ⟨text ++ ws, by simp, .one helement⟩ _
    · refine Reads.after [','] (reads_skip fun vs hvs => (readItems_reads room _).bind fun js t rest h => ?_)
      obtain ⟨t, rfl, h⟩ := h
      have hmore := ElementsText.more helement (h.lead hvs)
      exact reads_ok [] ⟨_, by simp, hmore⟩ rest
    · trivial

theorem readMembers_reads : ∀ (room : Nat) (cs : List Char),
    Reads (Closed (MembersText Written.Short) '\x7d') cs (readMembers room cs)
  | 0, cs => trivial
  | room + 1, cs => by
    unfold readMembers
    split
    · rename_i cs
      refine Reads.after ['"'] ((readString_reads cs).bind fun name ns rest hname => ?_)
      refine reads_skip fun ws hws => ?_
      dsimp only
      generalize skip rest = ds
      split
      · refine Reads.after [':'] (reads_skip fun us hus => ?_)
        refine (readValue_reads room _).bind fun j text rest hj => reads_skip fun vs hvs => ?_
        have hmember : MemberText Written.Short (name, j) ('"' :: ns ++ (ws ++ ':' :: (us ++ (text ++ vs)))) :=
          .mk (show Blank [] from List.forall_mem_nil _) hname hws (.mk hus hj hvs)
        dsimp only
        generalize skip rest = ds
        split
        · exact reads_ok ['\x7d'] ⟨_, by simp, .one hmember⟩ _
        · refine Reads.after [','] (reads_skip fun ts hts => ?_)
          refine (readMembers_reads room _).bind fun ms t rest h => ?_
          obtain ⟨t, rfl, h⟩ := h
          have hmore := MembersText.more hmember (h.lead hts)
          exact reads_ok [] ⟨_, by simp, hmore⟩ rest
        · trivial
      · trivial
    · trivial

end

/-! ## What is in the grammar is read -/

section Yields

variable {α β : Type} {r : Except Fault α} {a : α} {b : β}

/-- The reader's result, unless there may be numbers that are too long. -/
def Yields (P : Written → Prop) (r : Except Fault α) (a : α) : Prop :=
  r = .ok a ∨ (∃ w, P w ∧ ¬ w.Short) ∧ ∃ n, r = .error (.tooLong n)

theorem Yields.bind {f : α → Except Fault β} (h : Yields P r a) (hf : Yields P (f a) b) : Yields P (r >>= f) b := by
  rcases h with rfl | ⟨hP, n, rfl⟩
  · exact hf
  · exact .inr ⟨hP, n, rfl⟩

theorem yields_ok (a : α) : Yields P (.ok a) a := .inl rfl

end Yields

theorem escaped?_some {c e : Char} (h : (c, e) ∈ escapes) : escaped? c = some e ∧ c ≠ 'u' := by
  simp only [escapes, List.mem_cons, Prod.mk.injEq, List.not_mem_nil, or_false] at h
  rcases h with ⟨rfl, rfl⟩ | ⟨rfl, rfl⟩ | ⟨rfl, rfl⟩ | ⟨rfl, rfl⟩ | ⟨rfl, rfl⟩ | ⟨rfl, rfl⟩ | ⟨rfl, rfl⟩ |
    ⟨rfl, rfl⟩ <;>
    exact ⟨rfl, by decide⟩

theorem readParts_text (opening : Nat) {parts : List Part} {text : List Char} (h : PartsText parts text)
    (rest : List Char) : readParts opening (text ++ '"' :: rest) = .ok (parts, rest) := by
  induction h with
  | nil => simp [readParts]
  | plain hc h ih =>
    have hcontrol := Nat.not_lt.mpr hc.2.2
    simp [readParts, hc.1, hc.2.1, hcontrol, ih]
  | escape hc h ih =>
    obtain ⟨hescaped, hu⟩ := escaped?_some hc
    simp [readParts, hu, hescaped, ih]
  | code hn h ih =>
    obtain ⟨x, xs, hcons⟩ := List.exists_cons_of_ne_nil
      (List.append_ne_nil_of_right_ne_nil _ (List.cons_ne_nil '"' rest))
    simp only [List.cons_append]
    rw [hcons] at ih ⊢
    simp [readParts, hn, ih]

theorem readString_text {s : String} {text : List Char} (h : StringText s text) :
    ∃ cs, text = '"' :: cs ∧ ∀ rest, readString (cs ++ rest) = .ok (s, rest) := by
  obtain ⟨h⟩ := h
  refine ⟨_, rfl, fun rest => ?_⟩
  unfold readString
  rw [List.append_assoc, List.cons_append, List.nil_append, readParts_text _ h rest]
  rfl

theorem readWord_text {j : Json} {text : List Char} (h : (text, j) ∈ words) (rest : List Char) :
    readWord (text ++ rest) = some (j, rest) := by
  simp only [words, List.mem_cons, Prod.mk.injEq, List.not_mem_nil, or_false] at h
  rcases h with ⟨rfl, rfl⟩ | ⟨rfl, rfl⟩ | ⟨rfl, rfl⟩ | ⟨rfl, rfl⟩ | ⟨rfl, rfl⟩ | ⟨rfl, rfl⟩ <;> rfl

theorem word_opens {j : Json} {text : List Char} (h : (text, j) ∈ words) :
    ∃ c cs, text = c :: cs ∧ Opens c ∧ c ≠ '"' ∧ c ≠ '[' ∧ c ≠ '\x7b' := by
  simp only [words, List.mem_cons, Prod.mk.injEq, List.not_mem_nil, or_false] at h
  rcases h with ⟨rfl, rfl⟩ | ⟨rfl, rfl⟩ | ⟨rfl, rfl⟩ | ⟨rfl, rfl⟩ | ⟨rfl, rfl⟩ | ⟨rfl, rfl⟩ <;>
    exact ⟨_, _, rfl, .inl (by decide), by decide⟩

theorem ValueText.opens {j : Json} {text : List Char} (h : ValueText P j text) : ∃ c cs, text = c :: cs ∧ Opens c := by
  cases h with
  | word h =>
    obtain ⟨c, cs, rfl, hc, -⟩ := word_opens h
    exact ⟨c, cs, rfl, hc⟩
  | number h _ =>
    obtain ⟨c, cs, rfl, hc⟩ := h.opens
    rcases hc with hc | ⟨rfl, -⟩
    · exact ⟨_, _, rfl, .inr hc⟩
    · exact ⟨_, _, rfl, .inl (by decide)⟩
  | string h =>
    obtain ⟨h⟩ := h
    exact ⟨_, _, rfl, .inl (by decide)⟩
  | noItems => exact ⟨_, _, rfl, .inl (by decide)⟩
  | items => exact ⟨_, _, rfl, .inl (by decide)⟩
  | noMembers => exact ⟨_, _, rfl, .inl (by decide)⟩
  | members => exact ⟨_, _, rfl, .inl (by decide)⟩

theorem skip_value {ws text : List Char} (hws : Blank ws) {j : Json} (h : ValueText P j text) (rest : List Char) :
    skip (ws ++ (text ++ rest)) = text ++ rest := by
  obtain ⟨c, cs, rfl, hc⟩ := h.opens
  exact skip_spaces hws hc.other.1 _

theorem ElementsText.opens {js : List Json} {text : List Char} (h : ElementsText P js text) (rest : List Char) :
    ∃ c cs, skip (text ++ rest) = c :: cs ∧ Opens c := by
  obtain ⟨j, ws, cs, more, rfl, hws, hvalue⟩ :
      ∃ j ws cs more, text = ws ++ (cs ++ more) ∧ Blank ws ∧ ValueText P j cs := by
    cases h with
    | one h =>
      obtain ⟨hws, hvalue, -⟩ := h
      exact ⟨_, _, _, _, rfl, hws, hvalue⟩
    | more h =>
      obtain ⟨hws, hvalue, -⟩ := h
      exact ⟨_, _, _, _, by rw [List.append_assoc, List.append_assoc], hws, hvalue⟩
  have hskip := skip_value hws hvalue (more ++ rest)
  obtain ⟨c, ds, rfl, hc⟩ := hvalue.opens
  refine ⟨c, ds ++ (more ++ rest), ?_, hc⟩
  rw [List.append_assoc, List.append_assoc]
  exact hskip

theorem MembersText.opens {ms : List (String × Json)} {text : List Char} (h : MembersText P ms text)
    (rest : List Char) : ∃ cs, skip (text ++ rest) = '"' :: cs := by
  obtain ⟨ws, cs, rfl, hws⟩ : ∃ ws cs, text = ws ++ '"' :: cs ∧ Blank ws := by
    cases h with
    | one h =>
      obtain ⟨hws, ⟨hname⟩, -, -⟩ := h
      exact ⟨_, _, rfl, hws⟩
    | more h =>
      obtain ⟨hws, ⟨hname⟩, -, -⟩ := h
      exact ⟨_, _, List.append_assoc .., hws⟩
  refine ⟨cs ++ rest, ?_⟩
  rw [List.append_assoc]
  exact skip_spaces hws rfl _

theorem readValue_word {j : Json} {text : List Char} (h : (text, j) ∈ words) (room : Nat) (rest : List Char) :
    readValue (room + 1) (text ++ rest) = .ok (j, rest) := by
  have hword := readWord_text h rest
  obtain ⟨c, cs, rfl, -, hother⟩ := word_opens h
  rw [List.cons_append] at hword ⊢
  rw [readValue_other hother, hword]

mutual

theorem value_yields {j : Json} {text : List Char} : ValueText P j text → ∀ (room : Nat) (rest : List Char),
    2 * text.length ≤ room → Ends rest → Yields P (readValue room (text ++ rest)) (j, rest)
  | h, 0, _, hroom, _ => by
    obtain ⟨c, cs, rfl, -⟩ := h.opens
    simp at hroom
  | .word h, room + 1, rest, _, _ => .inl (readValue_word h room rest)
  | .number (w := w) h hw, room + 1, rest, _, hr => by
    rw [readValue_spelled h hr]
    by_cases hshort : w.Short
    · rw [w.json_short hshort]
      exact yields_ok _
    · rw [(w.json_long hshort).1]
      exact .inr ⟨⟨w, hw, hshort⟩, _, rfl⟩
  | .string h, room + 1, rest, _, _ => by
    obtain ⟨cs, rfl, hread⟩ := readString_text h
    rw [List.cons_append]
    simp only [readValue, hread]
    exact yields_ok _
  | .noItems hws, room + 1, rest, _, _ => by
    have hskip := skip_spaces hws (c := ']') rfl rest
    simp only [List.cons_append, List.append_assoc, List.nil_append, readValue, hskip]
    exact yields_ok _
  | @ValueText.items _ _ cs h, room + 1, rest, hroom, _ => by
    simp only [List.length_cons, List.length_append, List.length_nil] at hroom
    have hitems := elements_yields h room rest (by omega)
    obtain ⟨c, ds, hskip, hc⟩ := h.opens (']' :: rest)
    rw [hskip] at hitems
    simp only [List.cons_append, List.append_assoc, List.nil_append, readValue, hskip]
    split
    · rename_i heq
      cases heq
      exact absurd rfl hc.other.2.1
    · exact hitems.bind (yields_ok _)
  | .noMembers hws, room + 1, rest, _, _ => by
    have hskip := skip_spaces hws (c := '\x7d') rfl rest
    simp only [List.cons_append, List.append_assoc, List.nil_append, readValue, hskip]
    exact yields_ok _
  | .members h, room + 1, rest, hroom, _ => by
    simp only [List.length_cons, List.length_append, List.length_nil] at hroom
    have hmembers := members_yields h room rest (by omega)
    obtain ⟨ds, hskip⟩ := h.opens ('\x7d' :: rest)
    rw [hskip] at hmembers
    simp only [List.cons_append, List.append_assoc, List.nil_append, readValue, hskip]
    exact hmembers.bind (yields_ok _)

theorem element_yields {j : Json} {text : List Char} : ElementText P j text → ∀ (room : Nat) (rest : List Char),
    2 * text.length ≤ room → Ends rest →
    ∃ ws, Blank ws ∧ Yields P (readValue room (skip (text ++ rest))) (j, ws ++ rest)
  | @ElementText.mk _ _ ws _ vs hws h hvs, room, rest, hroom, hr => by
    simp only [List.length_append] at hroom
    have hread := value_yields h room (vs ++ rest) (by omega) (ends_spaces hvs hr)
    refine ⟨vs, hvs, ?_⟩
    rwa [List.append_assoc, List.append_assoc, skip_value hws h]

theorem elements_yields {js : List Json} {text : List Char} : ElementsText P js text →
    ∀ (room : Nat) (rest : List Char), 2 * text.length + 1 ≤ room →
    Yields P (readItems room (skip (text ++ ']' :: rest))) (js, rest)
  | h, 0, _, hroom => absurd hroom (Nat.not_succ_le_zero _)
  | .one h, room + 1, rest, hroom => by
    obtain ⟨ws, hws, hread⟩ := element_yields h room (']' :: rest) (by omega) (ends_cons rest (by decide))
    have hskip := skip_spaces hws (c := ']') rfl rest
    refine hread.bind ?_
    simp only [hskip]
    exact yields_ok _
  | @ElementsText.more _ _ _ _ ds h hs, room + 1, rest, hroom => by
    simp only [List.length_append, List.length_cons] at hroom
    obtain ⟨ws, hws, hread⟩ := element_yields h room (',' :: (ds ++ ']' :: rest)) (by omega) (ends_cons _ (by decide))
    have hskip := skip_spaces hws (c := ',') rfl (ds ++ ']' :: rest)
    rw [List.append_assoc, List.cons_append]
    refine hread.bind ?_
    simp only [hskip]
    exact (elements_yields hs room rest (by omega)).bind (yields_ok _)

theorem member_yields {m : String × Json} {text : List Char} : MemberText P m text → ∀ (room : Nat) (rest : List Char),
    2 * text.length ≤ room → Ends rest →
    ∃ cs value ws, skip (text ++ rest) = '"' :: cs ∧
      (∃ after, readString cs = .ok (m.1, after) ∧ skip after = ':' :: value) ∧ Blank ws ∧
      Yields P (readValue room (skip value)) (m.2, ws ++ rest)
  | @MemberText.mk _ _ _ _ _ vs cs hws hname hvs h, room, rest, hroom, hr => by
    simp only [List.length_append, List.length_cons] at hroom
    obtain ⟨ns, rfl, hstring⟩ := readString_text hname
    obtain ⟨ws, hblank, hread⟩ := element_yields h room rest (by omega) hr
    refine ⟨ns ++ (vs ++ ':' :: (cs ++ rest)), cs ++ rest, ws, ?_, ⟨_, hstring _, ?_⟩, hblank, hread⟩
    · have hskip := skip_spaces hws (c := '"') rfl (ns ++ (vs ++ ':' :: (cs ++ rest)))
      simpa only [List.append_assoc, List.cons_append] using hskip
    · exact skip_spaces hvs rfl _

theorem members_yields {ms : List (String × Json)} {text : List Char} : MembersText P ms text →
    ∀ (room : Nat) (rest : List Char), 2 * text.length + 1 ≤ room →
    Yields P (readMembers room (skip (text ++ '\x7d' :: rest))) (ms, rest)
  | h, 0, _, hroom => absurd hroom (Nat.not_succ_le_zero _)
  | .one h, room + 1, rest, hroom => by
    obtain ⟨cs, value, ws, hopen, ⟨after, hname, hcolon⟩, hws, hread⟩ :=
      member_yields h room ('\x7d' :: rest) (by omega) (ends_cons rest (by decide))
    have hskip := skip_spaces hws (c := '\x7d') rfl rest
    rw [hopen]
    refine Yields.bind (.inl hname) ?_
    simp only [hcolon]
    refine hread.bind ?_
    simp only [hskip]
    exact yields_ok _
  | @MembersText.more _ _ _ _ ds h hs, room + 1, rest, hroom => by
    simp only [List.length_append, List.length_cons] at hroom
    obtain ⟨cs, value, ws, hopen, ⟨after, hname, hcolon⟩, hws, hread⟩ :=
      member_yields h room (',' :: (ds ++ '\x7d' :: rest)) (by omega) (ends_cons _ (by decide))
    have hskip := skip_spaces hws (c := ',') rfl (ds ++ '\x7d' :: rest)
    rw [List.append_assoc, List.cons_append, hopen]
    refine Yields.bind (.inl hname) ?_
    simp only [hcolon]
    refine hread.bind ?_
    simp only [hskip]
    exact (members_yields hs room rest (by omega)).bind (yields_ok _)

end

/-! ## Texts -/

theorem ElementText.unmarked {j : Json} {cs : List Char} (h : ElementText P j cs) :
    (cs.head? == some byteOrderMark) = false := by
  rw [beq_eq_false_iff_ne]
  obtain ⟨hws, hvalue, hvs⟩ := h
  rename_i ws cs vs
  cases ws with
  | nil =>
    obtain ⟨c, ds, rfl, hc⟩ := hvalue.opens
    exact fun heq => hc.other.2.2 (Option.some.inj heq)
  | cons c ws =>
    intro heq
    have hspace := hws c List.mem_cons_self
    rw [Option.some.inj heq] at hspace
    exact absurd hspace (by decide)

theorem readDocument_reads (cs : List Char) :
    match readDocument cs with
    | .ok j => ElementText Written.Short j cs
    | .error (.tooLong n) => LongRun n cs
    | .error (.malformed _ _) => True := by
  obtain ⟨ws, hws, heq⟩ := skip_eq cs
  have hread := readValue_reads (2 * (cs.length + 1)) (skip cs)
  unfold readDocument
  cases hvalue : readValue (2 * (cs.length + 1)) (skip cs) with
  | error fault =>
    rw [hvalue] at hread
    cases fault with
    | tooLong n =>
      rw [heq]
      exact LongRun.mono hread (List.suffix_append ws _).isInfix
    | malformed => trivial
  | ok found =>
    obtain ⟨j, rest⟩ := found
    rw [hvalue] at hread
    obtain ⟨text, htext, hj⟩ := hread
    obtain ⟨vs, hvs, hrest⟩ := skip_eq rest
    simp only [bind, Except.bind]
    cases hend : skip rest with
    | nil =>
      rw [hend, List.append_nil] at hrest
      show ElementText Written.Short j cs
      rw [heq, htext, hrest]
      exact .mk hws hj hvs
    | cons c ds => trivial

theorem readDocument_yields {j : Json} {cs : List Char} (h : ElementText P j cs) : Yields P (readDocument cs) j := by
  obtain ⟨ws, hws, hread⟩ := element_yields h (2 * (cs.length + 1)) [] (by omega) (fun _ h => nomatch h)
  have hskip : skip (ws ++ []) = [] := by rw [skip_blank hws]; rfl
  rw [List.append_nil] at hread
  refine hread.bind ?_
  simp only [hskip]
  exact yields_ok j

/-- What is read from a text is what the text stands for. -/
theorem read_text {text : String} {j : Json} (h : read text = .ok j) : IsText Written.Short text j := by
  have hread := readDocument_reads text.toList
  unfold read readUnmarked at h
  split at h
  · cases h
  · cases hdocument : readDocument text.toList with
    | ok k =>
      rw [hdocument] at h hread
      cases h
      exact hread
    | error fault =>
      rw [hdocument] at h
      cases h

/-- A text that stands for something is read as it, if none of its numbers can be too long; else
    that may be what is wrong with it, and nothing else is. -/
theorem text_read {text : String} {j : Json} (h : IsText P text j) :
    read text = .ok j ∨ (∃ w, P w ∧ ¬ w.Short) ∧ ∃ n, read text = .error (.tooLong n) := by
  unfold read readUnmarked
  rw [h.unmarked, if_neg Bool.false_ne_true]
  rcases readDocument_yields h with hok | ⟨hP, n, hlong⟩
  · rw [hok]
    exact .inl rfl
  · rw [hlong]
    exact .inr ⟨hP, n, rfl⟩

theorem read_tooLong {text : String} {n : Nat} (h : read text = .error (.tooLong n)) : LongRun n text.toList := by
  have hread := readDocument_reads text.toList
  unfold read readUnmarked at h
  split at h
  · cases h
  · cases hdocument : readDocument text.toList with
    | ok k =>
      rw [hdocument] at h
      cases h
    | error fault =>
      rw [hdocument] at h hread
      cases fault with
      | malformed => cases h
      | tooLong n =>
        cases h
        exact hread

end StepFlow.Json
