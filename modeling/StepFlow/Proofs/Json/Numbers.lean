/-
  StepFlow.Proofs.Json.Numbers — a number's text is read as the number.

  A numeral is spelled by its sign, its whole digits, its places after a point and its
  exponent; an empty part leaves no trace. An exponent has several texts (`Spelled`), of which
  the writer uses one (`spell`). The reader takes such a text apart again where no character
  follows that could go on with it (`Ends`). The text of a double is one of four spellings of its
  shortest digits (`numeral`), each of the same value.

  Proved:
  - `readWritten_spelled`: what is spelled, in whatever way, is read.
  - `numeral_value`: wherever the point is put, the value is that of the digits.
  - `float_written`, `int_written`: the text of a finite double and of a whole number is a
    numeral that is read as it.
-/

import StepFlow.Json.Read
import StepFlow.Json.Write
import StepFlow.Proofs.Number.Shortest

namespace StepFlow.Json

/-! ## Spelled numerals -/

def pointText : List Char → List Char
  | [] => []
  | ds => '.' :: ds

/-- The texts of an exponent, or of none. -/
inductive ExponentText : Option Int → List Char → Prop
  | absent : ExponentText none []
  | present {c : Char} (hc : c = 'e' ∨ c = 'E') {negative : Bool} {sign ds : List Char}
      (hsign : (negative, sign) ∈ [(true, ['-']), (false, ['+']), (false, [])])
      (hdigits : ∀ d ∈ ds, d.isDigit = true) (hne : ds ≠ []) :
      ExponentText (some (if negative then -(Numeral.natOf 10 ds : Int) else Numeral.natOf 10 ds)) (c :: (sign ++ ds))

/-- Digits where digits belong, and no zero before others. -/
structure Written.Plain (w : Written) : Prop where
  whole : ∀ c ∈ w.whole, c.isDigit = true
  begins : w.whole = ['0'] ∨ ∃ c cs, w.whole = c :: cs ∧ c ≠ '0'
  places : ∀ c ∈ w.places, c.isDigit = true

def signText (negative : Bool) : List Char := if negative then ['-'] else []

/-- The texts of a numeral. -/
inductive Spelled (w : Written) : List Char → Prop
  | mk {e : List Char} (hw : w.Plain) (he : ExponentText w.exponent e) :
      Spelled w (signText w.negative ++ (w.whole ++ (pointText w.places ++ e)))

def exponentPart : Option Int → List Char
  | none => []
  | some e => 'e' :: Decimal.exponentText e

def spellUnsigned (whole places : List Char) (e : Option Int) : List Char :=
  whole ++ (pointText places ++ exponentPart e)

/-- The text that is written. -/
def spell (w : Written) : List Char :=
  if w.negative then '-' :: spellUnsigned w.whole w.places w.exponent else spellUnsigned w.whole w.places w.exponent

/-- Nothing that goes on with a number. -/
def Ends (rest : List Char) : Prop := ∀ c, rest.head? = some c → c.isDigit = false ∧ c ≠ '.' ∧ c ≠ 'e' ∧ c ≠ 'E'

theorem takeWhile_digits {ds rest : List Char} (h : ∀ c ∈ ds, c.isDigit = true)
    (hr : ∀ c, rest.head? = some c → c.isDigit = false) : (ds ++ rest).takeWhile Char.isDigit = ds := by
  rw [List.takeWhile_append_of_pos h]
  cases rest with
  | nil => simp
  | cons c rest =>
    rw [List.takeWhile_cons_of_neg (by rw [hr c rfl]; decide), List.append_nil]

theorem ExponentText.head {e : Option Int} {text rest : List Char} (h : ExponentText e text) (hr : Ends rest) :
    ∀ c, (text ++ rest).head? = some c → c.isDigit = false ∧ c ≠ '.' := by
  intro c hc
  cases h with
  | absent => exact ⟨(hr c hc).1, (hr c hc).2.1⟩
  | present hE =>
    cases hc
    rcases hE with rfl | rfl <;> decide

theorem pointText_head {places tail : List Char} (ht : ∀ c, tail.head? = some c → c.isDigit = false ∧ c ≠ '.') :
    ∀ c, (pointText places ++ tail).head? = some c → c.isDigit = false := by
  intro c hc
  cases places with
  | nil => exact (ht c hc).1
  | cons d ds =>
    cases hc
    rfl

theorem placeDigits_text {places tail : List Char} (hp : ∀ c ∈ places, c.isDigit = true)
    (ht : ∀ c, tail.head? = some c → c.isDigit = false ∧ c ≠ '.') :
    placeDigits (pointText places ++ tail) = places := by
  cases places with
  | nil =>
    unfold placeDigits pointText
    split
    · rename_i cs heq
      exact absurd rfl (ht '.' (by rw [← List.nil_append tail, heq]; rfl)).2
    · rfl
  | cons d ds => exact takeWhile_digits hp fun c hc => (ht c hc).1

/-- The digits of an exponent, at least two. -/
def exponentDigits (e : Int) : List Char :=
  let ds := Nat.toDigits 10 e.natAbs
  if ds.length < 2 then '0' :: ds else ds

theorem exponentText_eq (e : Int) : Decimal.exponentText e = (if e < 0 then '-' else '+') :: exponentDigits e := rfl

theorem exponentDigits_spec (e : Int) :
    (∀ c ∈ exponentDigits e, c.isDigit = true) ∧ (exponentDigits e).isEmpty = false ∧
      Numeral.natOf 10 (exponentDigits e) = e.natAbs := by
  have hdigits := Numeral.toDigits_isDigit e.natAbs
  unfold exponentDigits
  dsimp only
  split
  · refine ⟨fun c hc => ?_, rfl, ?_⟩
    · rcases List.mem_cons.mp hc with rfl | hc
      · rfl
      · exact hdigits c hc
    · exact (Numeral.natOf_zeros_append _ 1).trans (Numeral.natOf_toDigits _)
  · exact ⟨hdigits, List.isEmpty_eq_false_iff.mpr Nat.toDigits_ne_nil, Numeral.natOf_toDigits _⟩

/-- The exponent that is written is one of its texts. -/
theorem exponentPart_text (e : Option Int) : ExponentText e (exponentPart e) := by
  cases e with
  | none => exact .absent
  | some e =>
    obtain ⟨hdigits, hempty, hvalue⟩ := exponentDigits_spec e
    have hne := List.isEmpty_eq_false_iff.mp hempty
    have hpart : exponentPart (some e) = 'e' :: (if e < 0 then '-' else '+') :: exponentDigits e :=
      congrArg ('e' :: ·) (exponentText_eq e)
    rw [hpart]
    by_cases he : e < 0
    · have htext := ExponentText.present (.inl rfl) (show (true, ['-']) ∈ _ by decide) hdigits hne
      rw [hvalue, if_pos rfl, show -(e.natAbs : Int) = e by omega] at htext
      rwa [if_pos he]
    · have htext := ExponentText.present (.inl rfl) (show (false, ['+']) ∈ _ by decide) hdigits hne
      rw [hvalue, if_neg Bool.false_ne_true, show (e.natAbs : Int) = e by omega] at htext
      rwa [if_neg he]

/-- Digits after the sign of an exponent. -/
def readExponent (negative : Bool) (signs : Nat) (cs : List Char) : Option (Int × Nat) :=
  let digits := cs.takeWhile Char.isDigit
  let n : Int := Numeral.natOf 10 digits
  if digits.isEmpty then none else some (if negative then -n else n, 1 + signs + digits.length)

theorem exponent?_signed {c : Char} (hc : c = 'e' ∨ c = 'E') {negative : Bool} {sign ds : List Char}
    (hsign : (negative, sign) ∈ [(true, ['-']), (false, ['+']), (false, [])])
    (hds : sign = [] → ds.head? ≠ some '-' ∧ ds.head? ≠ some '+') :
    exponent? (c :: (sign ++ ds)) = readExponent negative sign.length ds := by
  have hE : (c == 'e' || c == 'E') = true := by rcases hc with rfl | rfl <;> rfl
  unfold exponent? readExponent
  dsimp only
  rw [if_pos hE]
  simp only [List.mem_cons, Prod.mk.injEq, List.not_mem_nil, or_false] at hsign
  rcases hsign with ⟨rfl, rfl⟩ | ⟨rfl, rfl⟩ | ⟨rfl, rfl⟩
  · rfl
  · rfl
  · obtain ⟨hminus, hplus⟩ := hds rfl
    rw [List.nil_append]
    split
    · exact absurd rfl hminus
    · exact absurd rfl hplus
    · rfl

theorem exponent?_none {cs : List Char} (h : ∀ c, cs.head? = some c → c ≠ 'e' ∧ c ≠ 'E') : exponent? cs = none := by
  cases cs with
  | nil => rfl
  | cons c cs =>
    have hnot : ¬ (c == 'e' || c == 'E') = true := by simp [h c rfl]
    exact if_neg hnot

theorem exponent?_text {e : Option Int} {text rest : List Char} (h : ExponentText e text) (hr : Ends rest) :
    exponent? (text ++ rest) = e.map fun n => (n, text.length) := by
  cases h with
  | absent => exact exponent?_none fun c hc => (hr c hc).2.2
  | present hE hsign hdigits hne =>
    rename_i c negative sign ds
    have hrun := takeWhile_digits hdigits fun c hc => (hr c hc).1
    have hhead : sign = [] → (ds ++ rest).head? ≠ some '-' ∧ (ds ++ rest).head? ≠ some '+' := by
      intro _
      obtain ⟨d, ds', rfl⟩ := List.exists_cons_of_ne_nil hne
      have hd := hdigits d List.mem_cons_self
      exact ⟨fun h => Numeral.isDigit_ne hd rfl (Option.some.inj h),
        fun h => Numeral.isDigit_ne hd rfl (Option.some.inj h)⟩
    rw [List.cons_append, List.append_assoc, exponent?_signed hE hsign hhead]
    unfold readExponent
    simp only [hrun, List.isEmpty_eq_false_iff.mpr hne, Bool.false_eq_true, if_false, Option.map_some,
      List.length_cons, List.length_append]
    congr 2
    omega

theorem wholeDigits_text {w : Written} (hw : w.Plain) {tail : List Char}
    (ht : ∀ c, tail.head? = some c → c.isDigit = false) : wholeDigits (w.whole ++ tail) = w.whole := by
  rcases hw.begins with h | ⟨c, cs, h, hc⟩
  · rw [h]
    rfl
  · have hrun := takeWhile_digits hw.whole ht
    rw [h] at hrun ⊢
    unfold wholeDigits
    split
    · rename_i heq
      cases heq
      exact absurd rfl hc
    · exact hrun

theorem whole_cons {w : Written} (hw : w.Plain) : ∃ c cs, w.whole = c :: cs ∧ c.isDigit = true := by
  rcases hw.begins with h | ⟨c, cs, h, -⟩
  · exact ⟨_, _, h, rfl⟩
  · exact ⟨c, cs, h, hw.whole c (by rw [h]; exact List.mem_cons_self)⟩

theorem drop_pointText (places tail : List Char) :
    (if places.isEmpty then pointText places ++ tail
      else (pointText places ++ tail).drop (places.length + 1)) = tail := by
  cases places with
  | nil => rfl
  | cons d ds => exact List.drop_left' rfl

/-- A numeral after its sign. -/
def readUnsigned (negative : Bool) (body : List Char) : Option (Written × List Char) :=
  let whole := wholeDigits body
  let body := body.drop whole.length
  let places := placeDigits body
  let body := if places.isEmpty then body else body.drop (places.length + 1)
  if whole.isEmpty then none
  else match exponent? body with
    | some (e, n) => some (⟨negative, whole, places, some e⟩, body.drop n)
    | none => some (⟨negative, whole, places, none⟩, body)

theorem readWritten_other {c : Char} (hc : c ≠ '-') (cs : List Char) :
    readWritten (c :: cs) = readUnsigned false (c :: cs) := by
  unfold readWritten
  split
  rename_i hsign
  split at hsign
  · rename_i heq
    cases heq
    exact absurd rfl hc
  · cases hsign
    rfl

theorem readUnsigned_text {w : Written} (hw : w.Plain) {e : List Char} (he : ExponentText w.exponent e)
    {rest : List Char} (hr : Ends rest) :
    readUnsigned w.negative (w.whole ++ (pointText w.places ++ (e ++ rest))) = some (w, rest) := by
  obtain ⟨c, cs, hcons, hc⟩ := whole_cons hw
  have hempty : w.whole.isEmpty = false := by rw [hcons]; rfl
  have htail := he.head hr
  unfold readUnsigned
  simp only [wholeDigits_text hw (pointText_head htail), List.drop_left, placeDigits_text hw.places htail,
    drop_pointText, hempty, exponent?_text he hr]
  cases hexp : w.exponent with
  | none =>
    rw [hexp] at he
    cases he
    rw [show w = ⟨w.negative, w.whole, w.places, none⟩ by rw [← hexp]]
    rfl
  | some e =>
    rw [show w = ⟨w.negative, w.whole, w.places, some e⟩ by rw [← hexp]]
    simp only [Option.map_some, List.drop_left]
    rfl

theorem Spelled.opens {w : Written} {text : List Char} (h : Spelled w text) :
    ∃ c cs, text = c :: cs ∧ (c.isDigit = true ∨ c = '-' ∧ ∃ d ds, cs = d :: ds ∧ d.isDigit = true) := by
  obtain ⟨hw, he⟩ := h
  obtain ⟨d, ds, hcons, hd⟩ := whole_cons hw
  rw [hcons]
  cases w.negative with
  | true => exact ⟨_, _, rfl, .inr ⟨rfl, _, _, rfl, hd⟩⟩
  | false => exact ⟨_, _, rfl, .inl hd⟩

/-- What is spelled is read, up to where nothing goes on with it. -/
theorem readWritten_spelled {w : Written} {text : List Char} (h : Spelled w text) {rest : List Char} (hr : Ends rest) :
    readWritten (text ++ rest) = some (w, rest) := by
  obtain ⟨hw, he⟩ := h
  have hread := readUnsigned_text hw he hr
  obtain ⟨c, cs, hcons, hc⟩ := whole_cons hw
  rw [List.append_assoc, List.append_assoc, List.append_assoc]
  cases hneg : w.negative with
  | true => rwa [hneg] at hread
  | false =>
    rw [hneg, hcons] at hread
    rw [hcons]
    exact (readWritten_other (Numeral.isDigit_ne hc rfl) _).trans hread

/-- What is written is spelled. -/
theorem spell_spelled {w : Written} (hw : w.Plain) : Spelled w (spell w) := by
  have htext : spell w = signText w.negative ++ (w.whole ++ (pointText w.places ++ exponentPart w.exponent)) := by
    unfold spell signText spellUnsigned
    cases w.negative <;> rfl
  rw [htext]
  exact .mk hw (exponentPart_text w.exponent)

theorem whole_spelled {ds : List Char} (h : Written.Plain ⟨false, ds, [], none⟩) :
    Spelled ⟨false, ds, [], none⟩ ds := by
  have htext := Spelled.mk h .absent
  simpa [signText, pointText] using htext

/-! ## Whole numbers and doubles -/

theorem json_float {w : Written} (hreal : w.places ≠ [] ∨ w.exponent ≠ none) :
    w.json = .ok (.float (Numeral.ofDecimal w.negative (Numeral.natOf 10 (w.whole ++ w.places))
      (w.exponent.getD 0 - w.places.length))) := by
  unfold Written.json
  split
  · rename_i hplaces hexponent
    exact absurd hreal (by simp [hplaces, hexponent])
  · rfl

/-- The numeral that digits with a point are written as. -/
def numeral (negative : Bool) (w : Decimal.Written) : Written :=
  if w.point < -3 ∨ 16 < w.point then ⟨negative, w.digits.take 1, w.digits.drop 1, some (w.point - 1)⟩
  else if w.point ≤ 0 then ⟨negative, ['0'], List.replicate (-w.point).toNat '0' ++ w.digits, none⟩
  else if w.point < w.digits.length then
    ⟨negative, w.digits.take w.point.toNat, w.digits.drop w.point.toNat, none⟩
  else ⟨negative, w.digits ++ List.replicate (w.point.toNat - w.digits.length) '0', ['0'], none⟩

theorem numeral_negative (negative : Bool) (w : Decimal.Written) : (numeral negative w).negative = negative := by
  unfold numeral
  split_ifs <;> rfl

/-- Digits with a point as text, as `floatText` lays them out. -/
def placed (w : Decimal.Written) : List Char :=
  if w.point < -3 ∨ 16 < w.point then
    w.digits.take 1 ++ (if w.digits.length = 1 then [] else '.' :: w.digits.drop 1)
      ++ 'e' :: Decimal.exponentText (w.point - 1)
  else if w.point ≤ 0 then '0' :: '.' :: (List.replicate (-w.point).toNat '0' ++ w.digits)
  else if w.point < w.digits.length then w.digits.take w.point.toNat ++ '.' :: w.digits.drop w.point.toNat
  else w.digits ++ List.replicate (w.point.toNat - w.digits.length) '0' ++ ['.', '0']

theorem pointText_ne {ds : List Char} (h : ds ≠ []) : pointText ds = '.' :: ds := by
  cases ds with
  | nil => exact absurd rfl h
  | cons => rfl

theorem drop_ne_nil {ds : List Char} {n : Nat} (h : n < ds.length) : ds.drop n ≠ [] := by
  intro hnil
  have := List.drop_eq_nil_iff.mp hnil
  omega

theorem spell_numeral (negative : Bool) {w : Decimal.Written} (hd : w.digits ≠ []) :
    spell (numeral negative w) = if negative then '-' :: placed w else placed w := by
  have hpos := List.length_pos_of_ne_nil hd
  have hunsigned : spellUnsigned (numeral negative w).whole (numeral negative w).places (numeral negative w).exponent =
      placed w := by
    unfold numeral placed spellUnsigned
    split_ifs with hfar hone hsmall hinside
    · rw [List.drop_of_length_le (by omega)]
      simp [pointText, exponentPart]
    · rw [pointText_ne (drop_ne_nil (by omega))]
      simp [exponentPart]
    · rw [pointText_ne (List.append_ne_nil_of_right_ne_nil _ hd)]
      simp [exponentPart]
    · rw [pointText_ne (drop_ne_nil (by omega))]
      simp [exponentPart]
    · simp [pointText, exponentPart]
  unfold spell
  rw [hunsigned, numeral_negative]

theorem floatText_finite {x : Float} {negative : Bool} {m : Nat} {e : Int}
    (h : Binary64.parts x = .finite negative m e) :
    (Decimal.floatText x).toList =
      if negative then '-' :: placed (if m = 0 then ⟨['0'], 1⟩ else Decimal.shortest m e)
      else placed (if m = 0 then ⟨['0'], 1⟩ else Decimal.shortest m e) := by
  unfold Decimal.floatText
  rw [h]
  exact String.toList_ofList

/-- The value of a numeral. -/
def Written.value (w : Written) : ℚ :=
  Numeral.natOf 10 (w.whole ++ w.places) * 10 ^ (w.exponent.getD 0 - w.places.length)

theorem numeral_real (negative : Bool) {w : Decimal.Written} (hd : w.digits ≠ []) :
    (numeral negative w).places ≠ [] ∨ (numeral negative w).exponent ≠ none := by
  unfold numeral
  split_ifs
  · exact .inr (Option.some_ne_none _)
  · exact .inl (List.append_ne_nil_of_right_ne_nil _ hd)
  · exact .inl (drop_ne_nil (by omega))
  · exact .inl (List.cons_ne_nil _ _)

theorem zeros_isDigit (n : Nat) : ∀ c ∈ List.replicate n '0', c.isDigit = true := by
  intro c hc
  rw [List.eq_of_mem_replicate hc]
  rfl

theorem numeral_plain {w : Decimal.Written} {v : ℚ} (hw : w.Spells v) (negative : Bool) :
    (numeral negative w).Plain := by
  obtain ⟨d, ds, hcons, hd⟩ := hw.begins
  have hdigits := hw.digits
  unfold numeral
  split_ifs with hfar hsmall hinside
  · refine ⟨fun c hc => hdigits c (List.mem_of_mem_take hc), .inr ⟨d, [], ?_, hd⟩,
      fun c hc => hdigits c (List.mem_of_mem_drop hc)⟩
    rw [hcons]
    rfl
  · refine ⟨zeros_isDigit 1, .inl rfl, fun c hc => ?_⟩
    rcases List.mem_append.mp hc with hc | hc
    · exact zeros_isDigit _ c hc
    · exact hdigits c hc
  · refine ⟨fun c hc => hdigits c (List.mem_of_mem_take hc), .inr ⟨d, ds.take (w.point.toNat - 1), ?_, hd⟩,
      fun c hc => hdigits c (List.mem_of_mem_drop hc)⟩
    rw [hcons, List.take_cons (by omega)]
  · refine ⟨fun c hc => ?_, .inr ⟨d, ds ++ List.replicate (w.point.toNat - w.digits.length) '0', ?_, hd⟩,
      zeros_isDigit 1⟩
    · rcases List.mem_append.mp hc with hc | hc
      · exact hdigits c hc
      · exact zeros_isDigit _ c hc
    · rw [hcons]
      rfl

theorem value_eq {w : Written} {digits k : Nat} {p : Int}
    (hdigits : Numeral.natOf 10 (w.whole ++ w.places) = digits * 10 ^ k)
    (hpoint : w.exponent.getD 0 - w.places.length + k = p) : w.value = digits * 10 ^ p := by
  rw [Written.value, hdigits, ← hpoint, Int.add_comm, zpow_add₀ (by norm_num), zpow_natCast]
  push_cast
  ring

theorem numeral_value {w : Decimal.Written} {v : ℚ} (hw : w.Spells v) (negative : Bool) :
    (numeral negative w).value = v := by
  have hlength := List.length_pos_of_ne_nil hw.ne_nil
  rw [← hw.value]
  unfold numeral
  split_ifs with hfar hsmall hinside
  · refine value_eq (k := 0) ?_ ?_
    · rw [List.take_append_drop, Nat.pow_zero, Nat.mul_one]
    · rw [Option.getD_some, List.length_drop]
      omega
  · refine value_eq (k := 0) ?_ ?_
    · rw [Nat.pow_zero, Nat.mul_one]
      exact Numeral.natOf_zeros_append w.digits ((-w.point).toNat + 1)
    · rw [Option.getD_none, List.length_append, List.length_replicate]
      omega
  · refine value_eq (k := 0) ?_ ?_
    · rw [List.take_append_drop, Nat.pow_zero, Nat.mul_one]
    · rw [Option.getD_none, List.length_drop]
      omega
  · refine value_eq (k := w.point.toNat - w.digits.length + 1) ?_ ?_
    · rw [← Numeral.natOf_append_zeros, List.replicate_succ', List.append_assoc]
    · rw [Option.getD_none, List.length_singleton]
      omega

theorem readNumber_spelled {w : Written} {text : List Char} (h : Spelled w text) {rest : List Char} (hr : Ends rest) :
    readNumber (text ++ rest) = w.json.map fun j => (j, rest) := by
  unfold readNumber
  rw [readWritten_spelled h hr]

theorem ofParts_zero (negative : Bool) (e : Int) : Binary64.ofParts negative 0 e = Binary64.zero negative := rfl

/-- A finite double is a numeral that is read as it. -/
theorem float_written {x : Float} (hx : x.isFinite = true) :
    ∃ w : Written, w.Plain ∧ writeFloat x = spell w ∧ w.json = .ok (.float x) := by
  obtain ⟨hnan, hinf⟩ := Binary64.not_of_finite hx
  obtain ⟨negative, m, e, hparts⟩ := Binary64.parts_finite hx
  have htext : writeFloat x = (Decimal.floatText x).toList := by
    unfold writeFloat
    rw [hnan, hinf]
    rfl
  have hback := Binary64.ofParts_parts hparts
  rw [htext, floatText_finite hparts]
  by_cases hm : m = 0
  · subst hm
    refine ⟨⟨negative, ['0'], ['0'], none⟩, ⟨zeros_isDigit 1, .inl rfl, zeros_isDigit 1⟩, ?_, ?_⟩
    · cases negative <;> rfl
    · rw [← hback, ofParts_zero]
      exact json_float (.inl (List.cons_ne_nil _ _))
  · have hfits := Binary64.fits_parts hparts hm
    obtain ⟨v, hnear, hspells⟩ := Decimal.shortest_spells hfits
    have hd := hspells.ne_nil
    refine ⟨numeral negative (Decimal.shortest m e), numeral_plain hspells negative, ?_, ?_⟩
    · rw [if_neg hm, spell_numeral negative hd]
    · have hvalue := numeral_value hspells negative
      rw [json_float (numeral_real negative hd), numeral_negative]
      rw [← hvalue] at hnear
      rw [Decimal.ofDecimal_near hfits hnear, hback]

/-- A whole number that is not too long is a numeral that is read as it. -/
theorem int_written {n : Int} (hn : (Nat.toDigits 10 n.natAbs).length ≤ Decimal.digitLimit) :
    ∃ w : Written, w.Plain ∧ (toString n).toList = spell w ∧ w.json = .ok (.int n) := by
  refine ⟨⟨decide (n < 0), Nat.toDigits 10 n.natAbs, [], none⟩,
    ⟨Numeral.toDigits_isDigit n.natAbs, ?_, List.forall_mem_nil _⟩, ?_, ?_⟩
  · rcases Nat.eq_zero_or_pos n.natAbs with hzero | hpos
    · rw [hzero]
      exact .inl rfl
    · exact .inr (Numeral.toDigits_begins hpos)
  · cases n with
    | ofNat m => exact Nat.toList_repr.trans (List.append_nil _).symm
    | negSucc m =>
      have htext : (toString (Int.negSucc m)).toList = '-' :: Nat.toDigits 10 (m + 1) :=
        String.toList_append.trans (congrArg ('-' :: ·) Nat.toList_repr)
      rw [htext, spell, if_pos (decide_eq_true (Int.negSucc_lt_zero m))]
      exact congrArg ('-' :: ·) (List.append_nil _).symm
  · unfold Written.json
    dsimp only
    rw [if_neg (by omega), Numeral.natOf_toDigits]
    congr 2
    by_cases hneg : n < 0
    · rw [if_pos (decide_eq_true hneg)]
      omega
    · rw [if_neg (by simpa using hneg)]
      omega

end StepFlow.Json
