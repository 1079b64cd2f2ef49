/-
  StepFlow.Proofs.Number.Shortest — the fewest digits that read back do so.

  The grids of decimals are tried from the widest on. A point of a grid is taken only if it is
  among the numbers near the double, and seventeen digits are a grid finer than what is near
  any double, so a grid with such a point is found.

  Proved:
  - `gridPoint?_inside`, `gridPoint?_isSome`: what a grid gives, and when it gives something.
  - `nearPoint?_isSome`: seventeen digits are enough for any double.
  - `shortest_spells`: the digits of a double spell a number near it.
  - `ofDecimal_near`: digits that spell a number near a double are read as the double.
-/

import StepFlow.Proofs.Number.Reading
import StepFlow.Proofs.Number.Rounding

namespace StepFlow.Decimal

open Binary64 (ratio Fits Nears reach reach_le)

/-! ## The size of a number -/

theorem length_pos (n : Nat) : 0 < length n := by
  unfold length
  split <;> omega

theorem length_bounds {n : Nat} (hn : 0 < n) : 10 ^ (length n - 1) ≤ n ∧ n < 10 ^ length n := by
  induction n using length.induct with
  | case1 n h =>
    rw [length, if_pos h]
    exact ⟨hn, h⟩
  | case2 n h ih =>
    obtain ⟨hlow, hhigh⟩ := ih (by omega)
    have hsucc : length (n / 10) = length (n / 10) - 1 + 1 := by
      have := length_pos (n / 10)
      omega
    rw [length, if_neg h, Nat.add_sub_cancel, Nat.pow_succ, hsucc, Nat.pow_succ]
    rw [hsucc, Nat.pow_succ] at hhigh
    omega

theorem ten_zpow (n : Nat) : (10 : ℚ) ^ (n : Int) = (10 ^ n : Nat) := by
  rw [zpow_natCast]
  push_cast
  rfl

/-- The place of the point is not too far right. -/
theorem pow_pointOf_le {num den : Nat} (hn : 0 < num) (hd : 0 < den) :
    (10 : ℚ) ^ (pointOf num den - 1) ≤ num / den := by
  have hdq : (0 : ℚ) < den := by exact_mod_cast hd
  rw [le_div_iff₀ hdq]
  unfold pointOf
  split
  · rename_i hle
    have hq := (length_bounds (Nat.div_pos hle hd)).1
    have hpos := length_pos (num / den)
    rw [show ((length (num / den) : Int) - 1) = ((length (num / den) - 1 : Nat) : Int) by omega, ten_zpow]
    exact_mod_cast (Nat.mul_le_mul_right den hq).trans (Nat.div_mul_le_self num den)
  · rename_i hlt
    have hq := (length_bounds (Nat.div_pos (not_le.mp hlt).le hn)).2
    have hpos := length_pos (den / num)
    generalize length (den / num) = l at *
    dsimp only
    split
    · rename_i hle
      rw [show (2 - (l : Int) - 1) = -((l - 1 : Nat) : Int) by omega, zpow_neg, ten_zpow,
        inv_mul_le_iff₀ (by positivity)]
      rw [mul_comm] at hle
      exact_mod_cast hle
    · rw [show (1 - (l : Int) - 1) = -(l : Int) by omega, zpow_neg, ten_zpow, inv_mul_le_iff₀ (by positivity)]
      have hlt := Nat.lt_mul_of_div_lt hq hn
      exact_mod_cast hlt.le

/-! ## Grids -/

theorem shifted_pos {num den : Nat} (hd : 0 < den) (p : Int) : 0 < (shifted num den p).2 :=
  Binary64.rescaled_pos (by decide) hd p

theorem shifted_eq {num den : Nat} (hd : 0 < den) (p : Int) :
    ((shifted num den p).1 / (shifted num den p).2 : ℚ) = num / den / 10 ^ p := Binary64.rescaled_eq (by decide) hd p

/-- A point of the grid `10 ^ p` in units of `1 / den`, times what makes them whole. -/
def gridPoint (den : Nat) (p : Int) (c : Nat) : Nat := if 0 ≤ p then c * 10 ^ p.toNat * den else c * den

/-- A number of units `1 / den`, times the same. -/
def gridEnd (p : Int) (x : Nat) : Nat := if 0 ≤ p then x else x * 10 ^ (-p).toNat

theorem grid_scale (den : Nat) (p : Int) :
    ∃ t : ℚ, 0 < t ∧ (∀ c, (gridPoint den p c : ℚ) = c * 10 ^ p * den * t) ∧ ∀ x, (gridEnd p x : ℚ) = x * t := by
  by_cases hp : 0 ≤ p
  · refine ⟨1, one_pos, fun c => ?_, fun x => ?_⟩
    · lift p to Nat using hp
      rw [gridPoint, if_pos (Int.natCast_nonneg p), Int.toNat_natCast, ten_zpow, mul_one]
      push_cast
      rfl
    · rw [gridEnd, if_pos hp, mul_one]
  · obtain ⟨n, rfl⟩ : ∃ n : Nat, p = -(n : Int) := ⟨(-p).toNat, by omega⟩
    refine ⟨(10 ^ n : Nat), by positivity, fun c => ?_, fun x => ?_⟩
    · rw [gridPoint, if_neg hp, zpow_neg, ten_zpow]
      push_cast
      field_simp
    · rw [gridEnd, if_neg hp, neg_neg, Int.toNat_natCast]
      push_cast
      rfl

/-- Between two ends, which are counted in if `closed`. -/
def Within (closed : Bool) (low high x : ℚ) : Prop := if closed then low ≤ x ∧ x ≤ high else low < x ∧ x < high

theorem within_of_lt {closed : Bool} {low high x : ℚ} (hlow : low < x) (hhigh : x < high) :
    Within closed low high x := by
  unfold Within
  split
  · exact ⟨hlow.le, hhigh.le⟩
  · exact ⟨hlow, hhigh⟩

/-- Whether a point of the grid is in the interval, as `gridPoint?` asks. -/
def inside (low high den : Nat) (closed : Bool) (p : Int) (c : Nat) : Bool :=
  if closed then decide (gridEnd p low ≤ gridPoint den p c) && decide (gridPoint den p c ≤ gridEnd p high)
  else decide (gridEnd p low < gridPoint den p c) && decide (gridPoint den p c < gridEnd p high)

theorem inside_iff {low high den : Nat} (hd : 0 < den) (closed : Bool) (p : Int) (c : Nat) :
    inside low high den closed p c = true ↔ Within closed (low / den) (high / den) (c * 10 ^ p) := by
  have hdq : (0 : ℚ) < den := by exact_mod_cast hd
  obtain ⟨t, ht, hpoint, hend⟩ := grid_scale den p
  have hle (x y : Nat) (a b : ℚ) (hx : (x : ℚ) = a * t) (hy : (y : ℚ) = b * t) : a ≤ b ↔ x ≤ y := by
    rw [← mul_le_mul_iff_of_pos_right ht, ← hx, ← hy, Nat.cast_le]
  have hlow := hle _ _ _ _ (hend low) (hpoint c)
  have hhigh := hle _ _ _ _ (hpoint c) (hend high)
  have hlow' := not_congr (hle _ _ _ _ (hpoint c) (hend low))
  have hhigh' := not_congr (hle _ _ _ _ (hend high) (hpoint c))
  rw [not_le, Nat.not_le] at hlow' hhigh'
  unfold Within inside
  rw [div_le_iff₀ hdq, le_div_iff₀ hdq, div_lt_iff₀ hdq, lt_div_iff₀ hdq, hlow, hhigh, hlow', hhigh']
  cases closed
  · simp only [Bool.false_eq_true, if_false, Bool.and_eq_true, decide_eq_true_eq]
  · simp only [if_true, Bool.and_eq_true, decide_eq_true_eq]

theorem gridPoint?_eq (low v high den : Nat) (closed : Bool) (p : Int) :
    gridPoint? low v high den closed p =
      let s := shifted v den p
      let d := s.1 / s.2
      let twice := 2 * (s.1 % s.2)
      match inside low high den closed p d, inside low high den closed p (d + 1) with
      | true, true => some (if twice < s.2 || (twice == s.2 && d % 2 == 0) then d else d + 1)
      | true, false => some d
      | false, true => some (d + 1)
      | false, false => none := rfl

theorem gridPoint?_inside {low v high den : Nat} {closed : Bool} {p : Int} {c : Nat}
    (h : gridPoint? low v high den closed p = some c) : inside low high den closed p c = true := by
  rw [gridPoint?_eq] at h
  dsimp only at h
  split at h
  · rename_i h1 h2
    split at h <;> cases h <;> assumption
  · cases h; assumption
  · cases h; assumption
  · cases h

/-- A grid that is finer than the interval has a point in it. -/
theorem gridPoint?_isSome {low v high den : Nat} (hd : 0 < den) (closed : Bool) {p : Int} (hlow : low < v)
    (hhigh : v < high) (hfine : (10 : ℚ) ^ p < high / den - low / den) :
    ∃ c, gridPoint? low v high den closed p = some c := by
  have hdq : (0 : ℚ) < den := by exact_mod_cast hd
  have hpow : (0 : ℚ) < 10 ^ p := by positivity
  have hlow' : (low / den : ℚ) < v / den := by gcongr
  have hhigh' : (v / den : ℚ) < high / den := by gcongr
  obtain ⟨t, hq, ht0, ht1, -⟩ := Binary64.div_split (a := (shifted v den p).1) (shifted_pos hd p)
  rw [shifted_eq hd, div_eq_iff hpow.ne'] at hq
  rw [gridPoint?_eq]
  dsimp only
  generalize (shifted v den p).1 / (shifted v den p).2 = d at *
  split
  · exact ⟨_, rfl⟩
  · exact ⟨_, rfl⟩
  · exact ⟨_, rfl⟩
  · -- the interval would lie between two points of the grid
    rename_i hout hout'
    have hnot := mt (inside_iff hd closed p d).mpr (Bool.eq_false_iff.mp hout)
    have hnot' := mt (inside_iff hd closed p (d + 1)).mpr (Bool.eq_false_iff.mp hout')
    push_cast at hnot'
    have hle : (d * 10 ^ p : ℚ) ≤ v / den := by rw [hq]; gcongr; linarith
    have hge : (v / den : ℚ) < (d + 1) * 10 ^ p := by rw [hq]; gcongr
    have hbelow : (d * 10 ^ p : ℚ) ≤ low / den := by
      by_contra hlt
      exact hnot (within_of_lt (not_le.mp hlt) (by linarith))
    have habove : (high / den : ℚ) ≤ (d + 1) * 10 ^ p := by
      by_contra hlt
      exact hnot' (within_of_lt (by linarith) (not_le.mp hlt))
    linarith

/-! ## Digits that spell a number -/

/-- The digits, of which the first is no zero, with the point in its place are the number. -/
structure Written.Spells (w : Written) (v : ℚ) : Prop where
  digits : ∀ c ∈ w.digits, c.isDigit = true
  begins : ∃ c cs, w.digits = c :: cs ∧ c ≠ '0'
  value : (Numeral.natOf 10 w.digits : ℚ) * 10 ^ (w.point - w.digits.length) = v

theorem Written.Spells.ne_nil {w : Written} {v : ℚ} (h : w.Spells v) : w.digits ≠ [] := by
  obtain ⟨c, cs, hcons, -⟩ := h.begins
  rw [hcons]
  exact List.cons_ne_nil c cs

/-- Digits without the zeros at their end. -/
theorem kept_zeros (ds : List Char) :
    ∃ z, ds = (ds.reverse.dropWhile (· == '0')).reverse ++ List.replicate z '0' := by
  have hsplit := congrArg List.reverse (List.takeWhile_append_dropWhile (p := (· == '0')) (l := ds.reverse))
  rw [List.reverse_append, List.reverse_reverse] at hsplit
  have hzeros : ∀ c ∈ (ds.reverse.takeWhile (· == '0')).reverse, c = '0' := by
    intro c hc
    have := List.mem_takeWhile_imp (List.mem_reverse.mp hc)
    exact beq_iff_eq.mp this
  rw [List.eq_replicate_of_mem hzeros] at hsplit
  exact ⟨_, hsplit.symm⟩

theorem ofGrid_spells {c : Nat} (hc : 0 < c) (p : Int) : (Written.ofGrid c p).Spells (c * 10 ^ p) := by
  obtain ⟨z, hz⟩ := kept_zeros (digitsText c)
  obtain ⟨d, ds, hbegins, hd⟩ := Numeral.toDigits_begins hc
  have hdigits := Numeral.toDigits_isDigit c
  have hvalue := Numeral.natOf_toDigits c
  unfold Written.ofGrid
  dsimp only
  generalize ((digitsText c).reverse.dropWhile (· == '0')).reverse = kept at *
  cases kept with
  | nil =>
    -- the first digit would be a zero
    have hmem : d ∈ List.replicate z '0' := by
      rw [show List.replicate z '0' = d :: ds from hz.symm.trans hbegins]
      exact List.mem_cons_self
    exact absurd (List.eq_of_mem_replicate hmem) hd
  | cons k kept =>
    rw [show Nat.toDigits 10 c = k :: kept ++ List.replicate z '0' from hz] at hbegins hdigits hvalue
    refine ⟨fun x hx => hdigits x (List.mem_append_left _ hx), ⟨k, kept, rfl, ?_⟩, ?_⟩
    · cases hbegins
      exact hd
    · rw [Numeral.natOf_append_zeros] at hvalue
      rw [hz, List.length_append, List.length_replicate, ← hvalue]
      push_cast
      rw [mul_assoc, ← zpow_natCast, ← zpow_add₀ (by norm_num)]
      congr 2
      simp
      omega

theorem ratio_spec {m : Nat} (hm : 0 < m) (e : Int) :
    0 < (ratio m e).1 ∧ 0 < (ratio m e).2 ∧ ((ratio m e).1 / (ratio m e).2 : ℚ) = m * 2 ^ e := by
  unfold ratio
  split
  · rename_i he
    lift e to Nat using he
    refine ⟨by positivity, one_pos, ?_⟩
    push_cast
    rw [Int.toNat_natCast, zpow_natCast, div_one]
  · obtain ⟨n, rfl⟩ : ∃ n : Nat, e = -(n : Int) := ⟨(-e).toNat, by omega⟩
    refine ⟨hm, by positivity, ?_⟩
    push_cast
    rw [neg_neg, Int.toNat_natCast, zpow_neg, zpow_natCast, div_eq_mul_inv]

/-- The grid of seventeen digits is finer than what is near a double. -/
theorem seventeen_digits {m : Nat} {e : Int} (hf : Fits m e) {p : Int} (hp : (10 : ℚ) ^ (p + 16) ≤ m * 2 ^ e) :
    (10 : ℚ) ^ p < (4 * m + 2 : Nat) * 2 ^ (e - 2) - (4 * m - reach m e : Nat) * 2 ^ (e - 2) := by
  have hpow : (0 : ℚ) < 2 ^ e := by positivity
  have hsmall : (m : ℚ) < 2 ^ 53 := by exact_mod_cast hf.small
  rw [zpow_add₀ (by norm_num)] at hp
  rw [← sub_mul, Binary64.quarter, Nat.cast_sub (reach_le hf.pos e)]
  push_cast
  by_cases hreach : m = 2 ^ 52 ∧ -1074 < e
  · obtain ⟨rfl, he⟩ := hreach
    rw [reach, if_pos ⟨rfl, he⟩]
    push_cast at hp ⊢
    nlinarith
  · rw [Binary64.reach_two hreach]
    push_cast
    nlinarith

theorem within_nears {m : Nat} {e : Int} {v : ℚ}
    (h : Within (m % 2 == 0) ((4 * m - reach m e : Nat) * 2 ^ (e - 2)) ((4 * m + 2 : Nat) * 2 ^ (e - 2)) v) :
    Nears m e v := by
  unfold Within at h
  split at h
  · rename_i heven
    rw [beq_iff_eq] at heven
    exact ⟨h.1, h.2, fun hodd => by omega⟩
  · exact ⟨h.1.le, h.2.le, fun _ => h⟩

/-- A point of the grid `10 ^ p` among the numbers near `m * 2 ^ e`. -/
def nearPoint? (m : Nat) (e p : Int) : Option Nat :=
  let r := ratio 1 (e - 2)
  gridPoint? ((4 * m - reach m e) * r.1) (4 * m * r.1) ((4 * m + 2) * r.1) r.2 (m % 2 == 0) p

/-- The place of the point of `m * 2 ^ e`. -/
def placeOf (m : Nat) (e : Int) : Int := pointOf (4 * m * (ratio 1 (e - 2)).1) (ratio 1 (e - 2)).2

theorem shortest_eq (m : Nat) (e : Int) :
    shortest m e = ((List.range 17).findSome? fun n : Nat =>
      (nearPoint? m e (placeOf m e - (n + 1))).map (Written.ofGrid · (placeOf m e - (n + 1)))).getD
        (Written.ofGrid (4 * m * (ratio 1 (e - 2)).1 / (ratio 1 (e - 2)).2) 0) := by
  have hreach : (if m = 2 ^ 52 && decide (-1074 < e) then 1 else 2) = reach m e := by
    simp only [reach, Bool.and_eq_true, decide_eq_true_eq]
  unfold shortest
  dsimp only
  rw [hreach]
  rfl

/-- A number of quarters of a double's unit. -/
theorem quarters_eq (a : Nat) (e : Int) :
    ((a * (ratio 1 (e - 2)).1 : Nat) : ℚ) / (ratio 1 (e - 2)).2 = a * 2 ^ (e - 2) := by
  have hunit := (ratio_spec one_pos (e - 2)).2.2
  rw [Nat.cast_one, one_mul] at hunit
  push_cast
  rw [mul_div_assoc, hunit]

theorem placeOf_le {m : Nat} (hm : 0 < m) (e : Int) : (10 : ℚ) ^ (placeOf m e - 1) ≤ m * 2 ^ e := by
  obtain ⟨hr1, hr2, -⟩ := ratio_spec one_pos (e - 2)
  have hplace := pow_pointOf_le (show 0 < 4 * m * (ratio 1 (e - 2)).1 by positivity) hr2
  have hv : ((4 * m : Nat) : ℚ) * 2 ^ (e - 2) = m * 2 ^ e := by
    rw [Binary64.quarter]
    push_cast
    ring
  rwa [quarters_eq, hv] at hplace

/-- Seventeen digits are enough. -/
theorem nearPoint?_isSome {m : Nat} {e : Int} (hf : Fits m e) : ∃ c, nearPoint? m e (placeOf m e - 17) = some c := by
  obtain ⟨hr1, hr2, -⟩ := ratio_spec one_pos (e - 2)
  have hpos := hf.pos
  have hreach := Binary64.reach_pos m e
  have hfine := seventeen_digits hf (p := placeOf m e - 17)
    (by rw [show placeOf m e - 17 + 16 = placeOf m e - 1 by ring]; exact placeOf_le hpos e)
  rw [← quarters_eq, ← quarters_eq] at hfine
  refine gridPoint?_isSome hr2 _ ?_ ?_ hfine
  · gcongr
    omega
  · gcongr
    omega

theorem nearPoint?_spells {m : Nat} {e p : Int} {c : Nat} (hm : 0 < m) (h : nearPoint? m e p = some c) :
    ∃ v, Nears m e v ∧ (Written.ofGrid c p).Spells v := by
  have hin := (inside_iff (ratio_spec one_pos (e - 2)).2.1 _ _ _).mp (gridPoint?_inside h)
  rw [quarters_eq, quarters_eq] at hin
  have hnear := within_nears hin
  have hc : 0 < c := by exact_mod_cast (mul_pos_iff_of_pos_right (by positivity)).mp (hnear.pos hm)
  exact ⟨_, hnear, ofGrid_spells hc p⟩

/-- The digits of a double spell a number that is read as it. -/
theorem shortest_spells {m : Nat} {e : Int} (hf : Fits m e) : ∃ v, Nears m e v ∧ (shortest m e).Spells v := by
  rw [shortest_eq]
  cases hfind : (List.range 17).findSome? fun n : Nat =>
      (nearPoint? m e (placeOf m e - (n + 1))).map (Written.ofGrid · (placeOf m e - (n + 1))) with
  | none =>
    have hlast := List.findSome?_eq_none_iff.mp hfind 16 (by decide)
    obtain ⟨c, hc⟩ := nearPoint?_isSome hf
    rw [show ((16 : Nat) : Int) + 1 = 17 from rfl, hc] at hlast
    cases hlast
  | some w =>
    obtain ⟨n, -, hn⟩ := List.exists_of_findSome?_eq_some hfind
    obtain ⟨c, hc, rfl⟩ := Option.map_eq_some_iff.mp hn
    exact nearPoint?_spells hf.pos hc

/-! ## Reading digits -/

theorem ten_lt {a b : Int} (h : (10 : ℚ) ^ a < 10 ^ b) : a < b := (zpow_lt_zpow_iff_right₀ (by norm_num)).mp h

theorem two_lt_ten : (2 : ℚ) ^ (1100 : Int) < 10 ^ (400 : Int) := by
  calc (2 : ℚ) ^ (1100 : Int) = (2 ^ 11) ^ 100 := (zpow_natCast 2 (11 * 100)).trans (pow_mul 2 11 100)
    _ < (10 ^ 4) ^ 100 := by
      gcongr
      norm_num
    _ = 10 ^ (400 : Int) := ((zpow_natCast 10 (4 * 100)).trans (pow_mul 10 4 100)).symm

/-- What is near a double is neither too large nor too small to be read. -/
theorem near_range {m : Nat} {e : Int} (hf : Fits m e) {v : ℚ} (h : Nears m e v) :
    (10 : ℚ) ^ (-400 : Int) < v ∧ v < 10 ^ (400 : Int) := by
  have hpos := hf.pos
  have hsmall := hf.small
  have hreached := Binary64.reach_le_two m e
  constructor
  · have htiny : (10 : ℚ) ^ (-400 : Int) < 2 ^ (-1100 : Int) := by
      rw [zpow_neg, zpow_neg]
      exact inv_strictAnti₀ (by positivity) two_lt_ten
    calc (10 : ℚ) ^ (-400 : Int) < 2 ^ (-1100 : Int) := htiny
      _ = (1 : Nat) * 2 ^ (-1100 : Int) := by rw [Nat.cast_one, one_mul]
      _ ≤ (4 * m - reach m e : Nat) * 2 ^ (e - 2) := by
        gcongr
        · omega
        · norm_num
        · linarith [hf.low]
      _ ≤ v := h.1
  · calc v ≤ (4 * m + 2 : Nat) * 2 ^ (e - 2) := h.2.1
      _ ≤ (2 ^ 55 : Nat) * 2 ^ (969 : Int) := by
        gcongr
        · omega
        · norm_num
        · linarith [hf.high]
      _ = 2 ^ (55 + 969 : Int) := by
        rw [zpow_add₀ (by norm_num), show ((2 ^ 55 : Nat) : ℚ) = 2 ^ (55 : Int) by norm_num]
      _ ≤ 2 ^ (1100 : Int) := by
        gcongr
        · norm_num
        · norm_num
      _ < 10 ^ (400 : Int) := two_lt_ten

/-- Digits that spell a number near a double are read as it. -/
theorem ofDecimal_near {m : Nat} {e : Int} (hf : Fits m e) {digits : Nat} {exponent : Int}
    (h : Nears m e (digits * 10 ^ exponent)) (negative : Bool) :
    Numeral.ofDecimal negative digits exponent = Binary64.ofParts negative m e := by
  obtain ⟨hlow, hhigh⟩ := near_range hf h
  have hpow : (0 : ℚ) < 10 ^ exponent := by positivity
  have hdigits : 0 < digits := by exact_mod_cast (mul_pos_iff_of_pos_right hpow).mp (h.pos hf.pos)
  obtain ⟨hl, hu⟩ := length_bounds hdigits
  have hpos := length_pos digits
  have hsize : ¬ 400 < (length digits : Int) + exponent := by
    have : (10 : ℚ) ^ ((length digits - 1 : Nat) + exponent : Int) < 10 ^ (400 : Int) := by
      refine lt_of_le_of_lt ?_ hhigh
      rw [zpow_add₀ (by norm_num), ten_zpow]
      gcongr
    have := ten_lt this
    omega
  have hsize' : ¬ (length digits : Int) + exponent < -400 := by
    have : (10 : ℚ) ^ (-400 : Int) < 10 ^ ((length digits : Int) + exponent) := by
      refine hlow.trans ?_
      rw [zpow_add₀ (by norm_num), ten_zpow]
      gcongr
    have := ten_lt this
    omega
  unfold Numeral.ofDecimal
  simp only [if_neg (Nat.ne_of_gt hdigits), if_neg hsize, if_neg hsize']
  split
  · rename_i hexp
    lift exponent to Nat using hexp
    refine Binary64.nearest_of_nears hf one_pos ?_ negative
    rw [ten_zpow] at h
    rw [Int.toNat_natCast, Nat.cast_one, div_one]
    push_cast at h ⊢
    exact h
  · obtain ⟨n, rfl⟩ : ∃ n : Nat, exponent = -(n : Int) := ⟨(-exponent).toNat, by omega⟩
    refine Binary64.nearest_of_nears hf (by positivity) ?_ negative
    rw [zpow_neg, ten_zpow, ← div_eq_mul_inv] at h
    rwa [neg_neg, Int.toNat_natCast]

end StepFlow.Decimal
