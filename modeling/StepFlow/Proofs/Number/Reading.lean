/-
  StepFlow.Proofs.Number.Reading — a whole number's decimal text is read as the number.
-/

import Mathlib
import StepFlow.Number.Numeral

namespace StepFlow.Numeral

open Text (isAsciiBlank)

theorem isDigit_range {c : Char} (h : c.isDigit = true) : 48 ≤ c.toNat ∧ c.toNat ≤ 57 := by
  simp only [Char.isDigit, Bool.and_eq_true, decide_eq_true_eq, UInt32.le_iff_toNat_le, ge_iff_le] at h
  exact h

theorem isDigit_ne {c d : Char} (h : c.isDigit = true) (hd : d.isDigit = false) : c ≠ d := by
  rintro rfl
  rw [h] at hd
  cases hd

theorem digitValue_isDigit {c : Char} (h : c.isDigit = true) : digitValue c = c.toNat - 48 := by
  unfold digitValue
  rw [if_pos h]

theorem plain_digits {ds : List Char} (h : ∀ c ∈ ds, c.isDigit = true) : plain ds = ds := by
  have hall : ds.all (fun c => decide (c.toNat < 128)) = true := by
    refine List.all_eq_true.mpr fun c hc => decide_eq_true ?_
    have := isDigit_range (h c hc)
    omega
  unfold plain
  rw [if_pos hall]

theorem underscoresOk_digits {ds : List Char} (h : ∀ c ∈ ds, c.isDigit = true) : underscoresOk ds = true := by
  induction ds with
  | nil => rfl
  | cons c cs ih =>
    have hc : c ≠ '_' := isDigit_ne (h c (by simp)) rfl
    rw [underscoresOk]
    · exact ih fun d hd => h d (List.mem_cons_of_mem c hd)
    · rintro rfl -
      exact hc rfl
    · rintro _ rfl -
      exact hc rfl

theorem toDigits_isDigit (n : Nat) : ∀ c ∈ Nat.toDigits 10 n, c.isDigit = true :=
  fun _ hc => Nat.isDigit_of_mem_toDigits (by decide) (by decide) hc

theorem natOf_toDigits (n : Nat) : natOf 10 (Nat.toDigits 10 n) = n := by
  have hfold : ∀ (ds : List Char) (m : Nat), (∀ c ∈ ds, c.isDigit = true) →
      ds.foldl (fun n c => n * 10 + digitValue c) m = Nat.ofDigitChars 10 ds m := by
    intro ds
    induction ds with
    | nil => intro m _; rfl
    | cons c cs ih =>
      intro m h
      rw [Nat.ofDigitChars_cons, List.foldl_cons, ih _ fun d hd => h d (List.mem_cons_of_mem c hd),
        digitValue_isDigit (h c (by simp)), Nat.mul_comm]
      rfl
  unfold natOf
  rw [hfold _ 0 (toDigits_isDigit n)]
  exact Nat.ofDigitChars_toDigits (by decide) (by decide)

theorem foldl_zeros (m n : Nat) :
    (List.replicate n '0').foldl (fun m c => m * 10 + digitValue c) m = m * 10 ^ n := by
  induction n generalizing m with
  | zero => exact (Nat.mul_one m).symm
  | succ n ih =>
    rw [List.replicate_succ, List.foldl_cons, ih, Nat.pow_succ', ← Nat.mul_assoc]
    rfl

theorem natOf_append_zeros (ds : List Char) (n : Nat) :
    natOf 10 (ds ++ List.replicate n '0') = natOf 10 ds * 10 ^ n := by
  unfold natOf
  rw [List.foldl_append, foldl_zeros]

theorem natOf_zeros_append (ds : List Char) (n : Nat) : natOf 10 (List.replicate n '0' ++ ds) = natOf 10 ds := by
  unfold natOf
  rw [List.foldl_append, foldl_zeros, Nat.zero_mul]

theorem toDigits_begins {n : Nat} (hn : 0 < n) : ∃ c cs, Nat.toDigits 10 n = c :: cs ∧ c ≠ '0' := by
  induction n using Nat.strongRecOn with
  | ind n ih =>
    by_cases hlt : n < 10
    · rw [Nat.toDigits_of_lt_base hlt]
      exact ⟨_, _, rfl, fun h => Nat.ne_of_gt hn (Nat.digitChar_eq_zero.mp h)⟩
    · obtain ⟨c, cs, h, hc⟩ := ih (n / 10) (by omega) (by omega)
      rw [Nat.toDigits_of_base_le (by decide) (by omega), h]
      exact ⟨c, _, rfl, hc⟩

theorem readNat_digits {ds : List Char} (h : ∀ c ∈ ds, c.isDigit = true) (hne : ds ≠ [])
    (hl : ds.length ≤ Decimal.digitLimit) : readNat 10 false ds = .ok (natOf 10 ds) := by
  have hrun : ds.takeWhile (fun c => c == '_' || decide (digitValue c < 10)) = ds := by
    have hpos : ∀ c ∈ ds, (c == '_' || decide (digitValue c < 10)) = true := by
      intro c hc
      have := isDigit_range (h c hc)
      rw [digitValue_isDigit (h c hc), Bool.or_eq_true, decide_eq_true_eq]
      omega
    have := @List.takeWhile_append_of_pos _ _ ds [] hpos
    rwa [List.append_nil, List.takeWhile_nil, List.append_nil] at this
  have hfilter : ds.filter (· != '_') = ds := by
    refine List.filter_eq_self.mpr fun c hc => ?_
    exact bne_iff_ne.mpr (isDigit_ne (h c hc) rfl)
  have hhead : (ds.head? == some '_') = false := by
    refine beq_eq_false_iff_ne.mpr fun he => ?_
    exact isDigit_ne (h '_' (List.mem_of_mem_head? he)) rfl rfl
  have hempty : ds.isEmpty = false := by
    cases ds with
    | nil => exact absurd rfl hne
    | cons => rfl
  have hlong : decide (Decimal.digitLimit < ds.length) = false := decide_eq_false (by omega)
  have hmark : dropMark 10 ds = ds := rfl
  simp only [readNat, hmark, hrun, hfilter, hhead, underscoresOk_digits h, hlong, hempty, List.drop_length,
    List.dropWhile_nil, List.isEmpty_nil, Bool.not_true, Bool.or_self, Bool.and_false, Bool.false_and, if_true,
    if_false, Bool.false_eq_true]

theorem readInt_digits {ds : List Char} (h : ∀ c ∈ ds, c.isDigit = true) (hne : ds ≠ [])
    (hl : ds.length ≤ Decimal.digitLimit) : readInt 10 ds = .ok (natOf 10 ds) := by
  obtain ⟨c, cs, rfl⟩ := List.exists_cons_of_ne_nil hne
  have hc : c.isDigit = true := h c (by simp)
  have hblank : ¬ isAsciiBlank c = true := by
    intro hb
    have := isDigit_range hc
    simp only [isAsciiBlank, Bool.or_eq_true, Bool.and_eq_true, decide_eq_true_eq, beq_iff_eq] at hb
    rcases hb with rfl | hb
    · cases hc
    · omega
  unfold readInt
  rw [plain_digits h, List.dropWhile_cons_of_neg hblank]
  dsimp only
  split
  · rename_i heq
    cases heq
    cases hc
  · rename_i heq
    cases heq
    cases hc
  · rw [if_neg (by decide)]
    simp only [readNat_digits h hne hl]
    rfl

/-- A number of at most as many digits as may be read is read from its digits. -/
theorem readInt_toDigits {n : Nat} (h : (Nat.toDigits 10 n).length ≤ Decimal.digitLimit) :
    readInt 10 (Nat.toDigits 10 n) = .ok n := by
  rw [readInt_digits (toDigits_isDigit n) Nat.toDigits_ne_nil h, natOf_toDigits]

end StepFlow.Numeral
