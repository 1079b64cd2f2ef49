/-
  StepFlow.Proofs.Number.Rounding — the double nearest to a quotient, and which quotients have
  a given one.

  A finite double that is not zero is `m * 2 ^ e` with its mantissa and exponent in range
  (`Fits`). The quotients that are nearer to it than to its neighbours (`Nears`) reach half a
  unit up and down, ends included if the mantissa is even. Below a power of two the doubles
  are twice as dense, so there the part below is a quarter.

  Proved:
  - `freeExponent_spec`: the exponent that is chosen gives a mantissa of 53 bits.
  - `nearest_below_power`: what is below a power of two is rounded up to it.
  - `nearest_of_nears`: every quotient near a double is rounded to it.
  - `fits_parts`, `ofParts_parts`: a double's parts are in range and make it.
-/

import Mathlib
import StepFlow.Number.Binary64

namespace StepFlow.Binary64

/-! ## Division that rounds -/

theorem div_split {a b : Nat} (hb : 0 < b) :
    ∃ t : ℚ, (a / b : ℚ) = (a / b : Nat) + t ∧ 0 ≤ t ∧ t < 1 ∧
      (2 * (a % b) < b ↔ 2 * t < 1) ∧ (b < 2 * (a % b) ↔ 1 < 2 * t) := by
  have hbq : (0 : ℚ) < b := by exact_mod_cast hb
  have hmod := Nat.mod_lt a hb
  have hsum : (b * (a / b : Nat) + (a % b : Nat) : ℚ) = a := by exact_mod_cast Nat.div_add_mod a b
  refine ⟨(a % b : Nat) / b, ?_, by positivity, ?_, ?_, ?_⟩
  · rw [← hsum]
    field_simp
  · rw [div_lt_one hbq]
    exact_mod_cast hmod
  · rw [← mul_div_assoc, div_lt_one hbq]
    norm_cast
  · rw [← mul_div_assoc, one_lt_div hbq]
    norm_cast

/-- A whole number within half a unit is the nearest, and an even one at just half a unit. -/
theorem roundDiv_eq {a b m : Nat} (hb : 0 < b) (hlow : (m : ℚ) ≤ a / b + 1 / 2) (hhigh : (a / b : ℚ) ≤ m + 1 / 2)
    (htie : m % 2 = 1 → (m : ℚ) < a / b + 1 / 2 ∧ (a / b : ℚ) < m + 1 / 2) : roundDiv a b = m := by
  obtain ⟨t, hq, ht0, ht1, hless, hmore⟩ := div_split (a := a) hb
  rw [hq] at hlow hhigh htie
  unfold roundDiv
  simp only [hless, hmore]
  generalize a / b = d at *
  have hdm : d ≤ m := by
    have : (d : ℚ) < (m + 1 : Nat) := by push_cast; linarith
    exact Nat.lt_succ_iff.mp (by exact_mod_cast this)
  have hmd : m ≤ d + 1 := by
    have : (m : ℚ) < (d + 2 : Nat) := by push_cast; linarith
    exact Nat.lt_succ_iff.mp (by exact_mod_cast this)
  rcases Nat.lt_or_ge d m with hlt | hge
  · obtain rfl : m = d + 1 := by omega
    push_cast at hlow hhigh htie
    rw [if_neg (by linarith)]
    by_cases hup : 1 < 2 * t
    · rw [if_pos hup]
    · have hodd : ¬ d % 2 = 0 := by
        intro heven
        have := (htie (by omega)).1
        linarith
      rw [if_neg hup, if_neg hodd]
  · obtain rfl : m = d := by omega
    by_cases hdown : 2 * t < 1
    · rw [if_pos hdown]
    · have heven : m % 2 = 0 := by
        by_contra hodd
        have := (htie (by omega)).2
        linarith
      rw [if_neg hdown, if_neg (by linarith), if_pos heven]

/-! ## Exponents -/

/-- The quotient `num / den / b ^ e` as numerator and denominator. -/
def rescaled (b num den : Nat) (e : Int) : Nat × Nat :=
  if 0 ≤ e then (num, den * b ^ e.toNat) else (num * b ^ (-e).toNat, den)

theorem rescaled_pos {b num den : Nat} (hb : 0 < b) (hd : 0 < den) (e : Int) : 0 < (rescaled b num den e).2 := by
  unfold rescaled
  split
  · positivity
  · exact hd

theorem rescaled_eq {b num den : Nat} (hb : 0 < b) (hd : 0 < den) (e : Int) :
    ((rescaled b num den e).1 / (rescaled b num den e).2 : ℚ) = num / den / b ^ e := by
  have hbq : (b : ℚ) ≠ 0 := by exact_mod_cast hb.ne'
  have hdq : (den : ℚ) ≠ 0 := by exact_mod_cast hd.ne'
  unfold rescaled
  split
  · rename_i he
    lift e to Nat using he
    rw [Int.toNat_natCast, zpow_natCast]
    push_cast
    field_simp
  · obtain ⟨n, rfl⟩ : ∃ n : Nat, e = -(n : Int) := ⟨(-e).toNat, by omega⟩
    rw [neg_neg, Int.toNat_natCast, zpow_neg, zpow_natCast]
    push_cast
    field_simp

theorem scaled_pos {num den : Nat} (hd : 0 < den) (e : Int) : 0 < (scaled num den e).2 := rescaled_pos two_pos hd e

theorem scaled_eq {num den : Nat} (hd : 0 < den) (e : Int) :
    ((scaled num den e).1 / (scaled num den e).2 : ℚ) = num / den / 2 ^ e := rescaled_eq two_pos hd e

/-- The exponent at which the quotient has a mantissa of 53 bits, however small that is. -/
def freeExponent (num den : Nat) : Int :=
  let e := (num.log2 : Int) - den.log2 - 52
  let s := scaled num den e
  if s.1 / s.2 < 2 ^ 52 then e - 1 else e

theorem exponentOf_eq (num den : Nat) : exponentOf num den = max (-1074) (freeExponent num den) := rfl

theorem log2_bounds {n : Nat} (hn : 0 < n) : (2 : ℚ) ^ (n.log2 : Int) ≤ n ∧ (n : ℚ) < 2 ^ ((n.log2 : Int) + 1) := by
  have hlow := Nat.log2_self_le hn.ne'
  have hhigh := Nat.lt_log2_self (n := n)
  constructor
  · rw [zpow_natCast]
    exact_mod_cast hlow
  · have hsucc : ((n.log2 : Int) + 1) = ((n.log2 + 1 : Nat) : Int) := by push_cast; rfl
    rw [hsucc, zpow_natCast]
    exact_mod_cast hhigh

theorem log2_quotient {num den : Nat} (hn : 0 < num) (hd : 0 < den) :
    (2 : ℚ) ^ ((num.log2 : Int) - den.log2 - 1) < num / den ∧
      (num / den : ℚ) < 2 ^ ((num.log2 : Int) - den.log2 + 1) := by
  have hdq : (0 : ℚ) < den := by exact_mod_cast hd
  obtain ⟨hn1, hn2⟩ := log2_bounds hn
  obtain ⟨hd1, hd2⟩ := log2_bounds hd
  constructor
  · rw [lt_div_iff₀ hdq]
    calc (2 : ℚ) ^ ((num.log2 : Int) - den.log2 - 1) * den
        < 2 ^ ((num.log2 : Int) - den.log2 - 1) * 2 ^ ((den.log2 : Int) + 1) := by gcongr
      _ = 2 ^ (num.log2 : Int) := by rw [← zpow_add₀ (by norm_num)]; congr 1; ring
      _ ≤ num := hn1
  · rw [div_lt_iff₀ hdq]
    calc (num : ℚ) < 2 ^ ((num.log2 : Int) + 1) := hn2
      _ = 2 ^ ((num.log2 : Int) - den.log2 + 1) * 2 ^ (den.log2 : Int) := by
        rw [← zpow_add₀ (by norm_num)]; congr 1; ring
      _ ≤ 2 ^ ((num.log2 : Int) - den.log2 + 1) * den := by gcongr

theorem scaled_div_lt {num den : Nat} (hd : 0 < den) (e : Int) :
    (scaled num den e).1 / (scaled num den e).2 < 2 ^ 52 ↔ (num / den : ℚ) < 2 ^ (e + 52) := by
  have hpos := @scaled_pos num den hd e
  have hposq : (0 : ℚ) < (scaled num den e).2 := by exact_mod_cast hpos
  have hpow : (0 : ℚ) < 2 ^ e := by positivity
  rw [Nat.div_lt_iff_lt_mul hpos, zpow_add₀ (by norm_num), mul_comm ((2 : ℚ) ^ e), ← div_lt_iff₀ hpow,
    ← scaled_eq hd, div_lt_iff₀ hposq]
  norm_cast

theorem freeExponent_spec {num den : Nat} (hn : 0 < num) (hd : 0 < den) :
    (2 : ℚ) ^ (freeExponent num den + 52) ≤ num / den ∧ (num / den : ℚ) < 2 ^ (freeExponent num den + 53) := by
  obtain ⟨hlow, hhigh⟩ := log2_quotient hn hd
  simp only [freeExponent, scaled_div_lt hd]
  generalize (num.log2 : Int) - den.log2 = l at *
  split
  · rename_i hless
    constructor
    · rw [show l - 52 - 1 + 52 = l - 1 by ring]
      exact hlow.le
    · rwa [show l - 52 - 1 + 53 = l - 52 + 52 by ring]
  · rename_i hless
    exact ⟨not_lt.mp hless, by rwa [show l - 52 + 53 = l + 1 by ring]⟩

theorem freeExponent_le {num den : Nat} (hn : 0 < num) (hd : 0 < den) {e : Int} (h : (num / den : ℚ) < 2 ^ (e + 53)) :
    freeExponent num den ≤ e := by
  have := (freeExponent_spec hn hd).1.trans_lt h
  have := (zpow_lt_zpow_iff_right₀ (by norm_num : (1 : ℚ) < 2)).mp this
  omega

theorem le_freeExponent {num den : Nat} (hn : 0 < num) (hd : 0 < den) {e : Int} (h : (2 : ℚ) ^ (e + 52) ≤ num / den) :
    e ≤ freeExponent num den := by
  have := h.trans_lt (freeExponent_spec hn hd).2
  have := (zpow_lt_zpow_iff_right₀ (by norm_num : (1 : ℚ) < 2)).mp this
  omega

/-- The exponent of a quotient that has a mantissa of 53 bits at it. -/
theorem exponentOf_normal {num den : Nat} (hn : 0 < num) (hd : 0 < den) {e : Int} (he : -1074 ≤ e)
    (hlow : (2 : ℚ) ^ (e + 52) ≤ num / den) (hhigh : (num / den : ℚ) < 2 ^ (e + 53)) : exponentOf num den = e := by
  have h1 := le_freeExponent hn hd hlow
  have h2 := freeExponent_le hn hd hhigh
  rw [exponentOf_eq]
  omega

theorem exponentOf_small {num den : Nat} (hn : 0 < num) (hd : 0 < den)
    (hhigh : (num / den : ℚ) < 2 ^ ((-1074 : Int) + 53)) : exponentOf num den = -1074 := by
  have h2 := freeExponent_le hn hd hhigh
  rw [exponentOf_eq]
  omega

/-! ## The quotients that are read as a double -/

/-- A mantissa and an exponent of a double that is not zero. -/
structure Fits (m : Nat) (e : Int) : Prop where
  pos : 0 < m
  small : m < 2 ^ 53
  low : -1074 ≤ e
  high : e ≤ 971
  full : 2 ^ 52 ≤ m ∨ e = -1074

/-- How far down a double reaches, in quarters of its unit. -/
def reach (m : Nat) (e : Int) : Nat := if m = 2 ^ 52 ∧ -1074 < e then 1 else 2

/-- The numbers that are nearer to `m * 2 ^ e` than to its neighbours; just between two doubles
    is the even one's. -/
def Nears (m : Nat) (e : Int) (v : ℚ) : Prop :=
  (4 * m - reach m e : Nat) * (2 : ℚ) ^ (e - 2) ≤ v ∧ v ≤ (4 * m + 2 : Nat) * (2 : ℚ) ^ (e - 2) ∧
    (m % 2 = 1 → (4 * m - reach m e : Nat) * (2 : ℚ) ^ (e - 2) < v ∧ v < (4 * m + 2 : Nat) * (2 : ℚ) ^ (e - 2))

theorem nearest_at {num den : Nat} (hn : 0 < num) (hd : 0 < den) {e : Int} (he : exponentOf num den = e) {m : Nat}
    (hlow : (m : ℚ) ≤ num / den / 2 ^ e + 1 / 2) (hhigh : (num / den / 2 ^ e : ℚ) ≤ m + 1 / 2)
    (htie : m % 2 = 1 → (m : ℚ) < num / den / 2 ^ e + 1 / 2 ∧ (num / den / 2 ^ e : ℚ) < m + 1 / 2) (negative : Bool) :
    nearest negative num den = ofParts negative m e := by
  rw [← scaled_eq hd] at hlow hhigh htie
  unfold nearest
  rw [if_neg hn.ne', he]
  simp only [roundDiv_eq (scaled_pos hd e) hlow hhigh htie]

theorem quarter (m : ℚ) (e : Int) : m * 2 ^ (e - 2) = m / 4 * 2 ^ e := by
  rw [zpow_sub₀ (by norm_num)]
  norm_num
  ring

theorem reach_pos (m : Nat) (e : Int) : 0 < reach m e := by
  unfold reach
  split <;> decide

theorem reach_le_two (m : Nat) (e : Int) : reach m e ≤ 2 := by
  unfold reach
  split <;> decide

theorem reach_le {m : Nat} (hm : 0 < m) (e : Int) : reach m e ≤ 4 * m := by
  have := reach_le_two m e
  omega

/-- The bounds of what is near a double, in its units. -/
theorem Nears.units {m : Nat} {e : Int} {v : ℚ} (hm : 0 < m) (h : Nears m e v) :
    (m : ℚ) - reach m e / 4 ≤ v / 2 ^ e ∧ v / 2 ^ e ≤ m + 1 / 2 ∧
      (m % 2 = 1 → (m : ℚ) - reach m e / 4 < v / 2 ^ e ∧ v / 2 ^ e < m + 1 / 2) := by
  have hpow : (0 : ℚ) < 2 ^ e := by positivity
  have hleft : ((4 * m - reach m e : Nat) : ℚ) * 2 ^ (e - 2) = (m - reach m e / 4) * 2 ^ e := by
    rw [quarter, Nat.cast_sub (reach_le hm e)]
    push_cast
    ring
  have hright : ((4 * m + 2 : Nat) : ℚ) * 2 ^ (e - 2) = (m + 1 / 2) * 2 ^ e := by
    rw [quarter]
    push_cast
    ring
  unfold Nears at h
  rw [hleft, hright] at h
  rwa [le_div_iff₀ hpow, div_le_iff₀ hpow, lt_div_iff₀ hpow, div_lt_iff₀ hpow]

theorem reach_two {m : Nat} {e : Int} (h : ¬ (m = 2 ^ 52 ∧ -1074 < e)) : reach m e = 2 := if_neg h

/-- The largest mantissa at one exponent, rounded up, is the smallest at the next. -/
theorem ofParts_carry (negative : Bool) {e : Int} (he : -1074 < e) :
    ofParts negative (2 ^ 53) (e - 1) = ofParts negative (2 ^ 52) e := by
  have hword : (e - 1 + 1075).toNat * 2 ^ 52 + (2 ^ 53 - 2 ^ 52) = (e + 1075).toNat * 2 ^ 52 + (2 ^ 52 - 2 ^ 52) := by
    omega
  have hmost : ¬ 2 ^ 53 < 2 ^ 52 := by norm_num
  have hleast : ¬ 2 ^ 52 < 2 ^ 52 := by norm_num
  unfold ofParts
  simp only [if_neg hmost, if_neg hleast, hword]

theorem Nears.pos {m : Nat} {e : Int} {v : ℚ} (hm : 0 < m) (h : Nears m e v) : 0 < v := by
  have hreached := reach_le_two m e
  have hbelow : 0 < 4 * m - reach m e := by omega
  exact lt_of_lt_of_le (by positivity) h.1

theorem Nears.lt {m : Nat} {e : Int} {v : ℚ} (hf : Fits m e) (h : Nears m e v) : v < 2 ^ (e + 53) := by
  have hpow : (0 : ℚ) < 2 ^ e := by positivity
  have hsmall : (m : ℚ) + 1 ≤ 2 ^ 53 := by exact_mod_cast hf.small
  rw [zpow_add₀ (by norm_num), mul_comm, ← div_lt_iff₀ hpow]
  refine lt_of_le_of_lt (h.units hf.pos).2.1 ?_
  norm_num at hsmall ⊢
  linarith

/-- Only a power of two has numbers near it that are of fewer bits than it. -/
theorem Nears.eq_power {m : Nat} {e : Int} {v : ℚ} (hf : Fits m e) (he : e ≠ -1074) (h : Nears m e v)
    (hless : v < 2 ^ (e + 52)) : m = 2 ^ 52 := by
  have hpow : (0 : ℚ) < 2 ^ e := by positivity
  have hfull := hf.full.resolve_right he
  have hlow := (h.units hf.pos).1
  rw [zpow_add₀ (by norm_num), mul_comm, ← div_lt_iff₀ hpow] at hless
  by_contra hne
  have hge : (2 ^ 52 : ℚ) + 1 ≤ m := by exact_mod_cast (show 2 ^ 52 + 1 ≤ m by omega)
  rw [reach_two fun hm => hne hm.1] at hlow
  push_cast at hlow
  norm_num at hless
  linarith

/-- What is below a power of two but near it is of the exponent before, and rounded up. -/
theorem nearest_below_power {e : Int} (he : -1074 < e) {num den : Nat} (hn : 0 < num) (hd : 0 < den)
    (h : Nears (2 ^ 52) e (num / den)) (hless : (num / den : ℚ) < 2 ^ (e + 52)) (negative : Bool) :
    nearest negative num den = ofParts negative (2 ^ 52) e := by
  have hpow : (0 : ℚ) < 2 ^ e := by positivity
  have hlow := (h.units (by norm_num)).1
  have hreach : reach (2 ^ 52) e = 1 := if_pos ⟨rfl, he⟩
  rw [hreach] at hlow
  push_cast at hlow
  have he' : exponentOf num den = e - 1 := by
    refine exponentOf_normal hn hd (by omega) ?_ (by rwa [show e - 1 + 53 = e + 52 by ring])
    rw [show e - 1 + 52 = e + 51 by ring, zpow_add₀ (by norm_num), mul_comm, ← le_div_iff₀ hpow]
    norm_num at hlow ⊢
    linarith
  have hhalf : (num / den / 2 ^ (e - 1) : ℚ) = 2 * (num / den / 2 ^ e) := by
    rw [zpow_sub_one₀ (by norm_num)]
    field_simp
  rw [zpow_add₀ (by norm_num), mul_comm, ← div_lt_iff₀ hpow] at hless
  norm_num at hless
  rw [← ofParts_carry negative he]
  refine nearest_at hn hd he' ?_ ?_ (fun hodd => by norm_num at hodd) negative
  · rw [hhalf]
    push_cast
    linarith
  · rw [hhalf]
    push_cast
    linarith

/-- A quotient near a double is rounded to it. -/
theorem nearest_of_nears {m : Nat} {e : Int} (hf : Fits m e) {num den : Nat} (hd : 0 < den)
    (h : Nears m e (num / den)) (negative : Bool) : nearest negative num den = ofParts negative m e := by
  have hdq : (0 : ℚ) < den := by exact_mod_cast hd
  have hn : 0 < num := by exact_mod_cast (div_pos_iff_of_pos_right hdq).mp (h.pos hf.pos)
  by_cases hwide : (2 : ℚ) ^ (e + 52) ≤ num / den ∨ e = -1074
  · have he : exponentOf num den = e := by
      rcases hwide with hwide | rfl
      · exact exponentOf_normal hn hd hf.low hwide (h.lt hf)
      · exact exponentOf_small hn hd (h.lt hf)
    obtain ⟨hlow, hhigh, htie⟩ := h.units hf.pos
    have hr : (reach m e : ℚ) ≤ 2 := by exact_mod_cast reach_le_two m e
    refine nearest_at hn hd he (by linarith) hhigh (fun hodd => ⟨?_, (htie hodd).2⟩) negative
    linarith [(htie hodd).1]
  · obtain ⟨hless, he⟩ := not_or.mp hwide
    have hlow := hf.low
    obtain rfl := h.eq_power hf he (not_le.mp hless)
    exact nearest_below_power (by omega) hn hd h (not_le.mp hless) negative

/-! ## The parts of a double -/

theorem fits_parts {x : Float} {negative : Bool} {m : Nat} {e : Int} (h : parts x = .finite negative m e)
    (hm : m ≠ 0) : Fits m e := by
  unfold parts at h
  dsimp only at h
  have hfraction := Nat.mod_lt x.toBits.toNat (show 0 < 2 ^ 52 by norm_num)
  have hbiased := Nat.mod_lt (x.toBits.toNat / 2 ^ 52) (show 0 < 2 ^ 11 by norm_num)
  split at h
  · split at h <;> cases h
  split at h
  · cases h
    exact ⟨by omega, by omega, by omega, by omega, .inr rfl⟩
  · cases h
    exact ⟨by omega, by omega, by omega, by omega, .inl (by omega)⟩

theorem ofParts_parts {x : Float} {negative : Bool} {m : Nat} {e : Int} (h : parts x = .finite negative m e) :
    ofParts negative m e = x := by
  have hx : Float.ofBits (UInt64.ofNat x.toBits.toNat) = x := by
    rw [UInt64.ofNat_toNat, Float.ofBits_toBits]
  have hword : x.toBits.toNat < 2 ^ 64 := UInt64.toNat_lt x.toBits
  unfold parts at h
  dsimp only at h
  generalize x.toBits.toNat = word at *
  have hfraction := Nat.mod_lt word (show 0 < 2 ^ 52 by norm_num)
  have hbiased := Nat.mod_lt (word / 2 ^ 52) (show 0 < 2 ^ 11 by norm_num)
  have hsign : (if decide (2 ^ 63 ≤ word) then 2 ^ 63 else 0) +
      (word / 2 ^ 52 % 2 ^ 11 * 2 ^ 52 + word % 2 ^ 52) = word := by
    split <;> rename_i hneg <;> simp only [decide_eq_true_eq] at hneg <;> omega
  split at h
  · split at h <;> cases h
  split at h
  · rename_i hzero
    cases h
    rw [hzero, Nat.zero_mul, Nat.zero_add] at hsign
    unfold ofParts
    simp only [if_pos hfraction, if_neg (show ¬ 2047 * 2 ^ 52 ≤ word % 2 ^ 52 by omega), hsign, hx]
  · rename_i hmost hzero
    cases h
    have hnormal : ¬ 2 ^ 52 + word % 2 ^ 52 < 2 ^ 52 := by omega
    have hexp : (((word / 2 ^ 52 % 2 ^ 11 : Nat) : Int) - 1075 + 1075).toNat = word / 2 ^ 52 % 2 ^ 11 := by omega
    unfold ofParts
    simp only [if_neg hnormal, hexp, Nat.add_sub_cancel_left,
      if_neg (show ¬ 2047 * 2 ^ 52 ≤ word / 2 ^ 52 % 2 ^ 11 * 2 ^ 52 + word % 2 ^ 52 by omega), hsign, hx]

theorem parts_finite {x : Float} (h : x.isFinite = true) : ∃ negative m e, parts x = .finite negative m e := by
  have hexp : x.toBits.toNat / 2 ^ 52 % 2 ^ 11 ≠ 2047 := by
    intro hmost
    have hword : @Float.Model.UnpackedFloat.unpackExponent .binary64 x.toModel.toBits.toBitVec = -1#11 := by
      rw [Float.Model.UnpackedFloat.unpackExponent_def]
      apply BitVec.eq_of_toNat_eq
      rw [BitVec.extractLsb'_toNat, Nat.shiftRight_eq_div_pow]
      exact hmost
    have hunpack : x.toModel.unpack.isFinite = true := h
    unfold Float.Model.unpack Float.Model.UnpackedFloat.unpack at hunpack
    dsimp only at hunpack
    rw [if_pos hword] at hunpack
    split at hunpack <;> cases hunpack
  unfold parts
  dsimp only
  rw [if_neg hexp]
  split
  · exact ⟨_, _, _, rfl⟩
  · exact ⟨_, _, _, rfl⟩

/-- A finite double is no other. -/
theorem not_of_finite {x : Float} (h : x.isFinite = true) : x.isNaN = false ∧ x.isInf = false := by
  unfold Float.isFinite Float.Model.isFinite at h
  unfold Float.isNaN Float.isInf Float.Model.isNaN Float.Model.isInf
  cases hx : x.toModel.unpack with
  | infinity => rw [hx] at h; cases h
  | notANumber => rw [hx] at h; cases h
  | zero => exact ⟨rfl, rfl⟩
  | finite => exact ⟨rfl, rfl⟩

end StepFlow.Binary64
