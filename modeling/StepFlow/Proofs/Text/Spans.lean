/-
  StepFlow.Proofs.Text.Spans — no character is both a letter and a digit.

  Both classes are tables of spans. That the tables share no code point is one walk over the
  two of them (`apart`), which merges them into spans that follow one another.
-/

import Mathlib
import StepFlow.Text.Numeric

namespace StepFlow.Text

/-- The spans of two lists follow one another when they are merged, from `low` on. -/
def apart (low : Nat) : List (Nat × Nat) → List (Nat × Nat) → Bool
  | [], [] => true
  | s :: ss, [] => low ≤ s.1 && s.1 ≤ s.2 && apart (s.2 + 1) ss []
  | [], t :: ts => low ≤ t.1 && t.1 ≤ t.2 && apart (t.2 + 1) [] ts
  | s :: ss, t :: ts =>
    if s.1 < t.1 then low ≤ s.1 && s.1 ≤ s.2 && apart (s.2 + 1) ss (t :: ts)
    else low ≤ t.1 && t.1 ≤ t.2 && apart (t.2 + 1) (s :: ss) ts
  termination_by ss ts => ss.length + ts.length

theorem mem_from {low : Nat} {s : Nat × Nat} {ss : List (Nat × Nat)} (h : low ≤ s.1 ∧ s.1 ≤ s.2)
    (hss : ∀ x ∈ ss, s.2 + 1 ≤ x.1) : ∀ x ∈ s :: ss, low ≤ x.1 := by
  intro x hx
  rcases List.mem_cons.mp hx with rfl | hx
  · exact h.1
  · have := hss x hx
    omega

/-- The two lists have no code point in common. -/
theorem apart_disjoint {low : Nat} {ss ts : List (Nat × Nat)} (h : apart low ss ts = true) :
    (∀ s ∈ ss, low ≤ s.1) ∧ (∀ t ∈ ts, low ≤ t.1) ∧ ∀ s ∈ ss, ∀ t ∈ ts, s.2 < t.1 ∨ t.2 < s.1 := by
  fun_induction apart low ss ts with
  | case1 => simp
  | case2 low s ss ih =>
    simp only [Bool.and_eq_true, decide_eq_true_eq] at h
    exact ⟨mem_from h.1 (ih h.2).1, by simp, by simp⟩
  | case3 low t ts ih =>
    simp only [Bool.and_eq_true, decide_eq_true_eq] at h
    exact ⟨by simp, mem_from h.1 (ih h.2).2.1, by simp⟩
  | case4 low s ss t ts hlt ih =>
    simp only [Bool.and_eq_true, decide_eq_true_eq] at h
    obtain ⟨hs, ht, hst⟩ := ih h.2
    refine ⟨mem_from h.1 hs, fun y hy => ?_, fun x hx y hy => ?_⟩
    · have := ht y hy
      omega
    · have := ht y hy
      rcases List.mem_cons.mp hx with rfl | hx
      · omega
      · exact hst x hx y hy
  | case5 low s ss t ts hlt ih =>
    simp only [Bool.and_eq_true, decide_eq_true_eq] at h
    obtain ⟨hs, ht, hst⟩ := ih h.2
    refine ⟨fun x hx => ?_, mem_from h.1 ht, fun x hx y hy => ?_⟩
    · have := hs x hx
      omega
    · have := hs x hx
      rcases List.mem_cons.mp hy with rfl | hy
      · omega
      · exact hst x hx y hy

theorem letterSpans_apart_digitSpans : apart 0 letterSpans digitSpans = true := by decide +kernel

theorem isAlpha_not_isDigit {c : Char} (h : c.isAlpha = true) : c.isDigit = false := by
  simp only [Char.isAlpha, Char.isUpper, Char.isLower, Char.isDigit, Bool.or_eq_true, Bool.and_eq_true,
    Bool.and_eq_false_iff, decide_eq_true_eq, decide_eq_false_iff_not, UInt32.le_iff_toNat_le, ge_iff_le] at h ⊢
  have : '9'.val.toNat = 57 := rfl
  have : 'A'.val.toNat = 65 := rfl
  have : 'a'.val.toNat = 97 := rfl
  omega

theorem isLetter_not_isDigit {c : Char} (h : isLetter c = true) : isDigit c = false := by
  unfold isLetter at h
  unfold isDigit
  by_cases hc : c.toNat < 128
  · rw [if_pos hc] at h ⊢
    exact isAlpha_not_isDigit h
  · rw [if_neg hc] at h ⊢
    obtain ⟨s, hs, hin⟩ := List.any_eq_true.mp h
    refine List.any_eq_false.mpr fun t ht hin' => ?_
    have hapart := (apart_disjoint letterSpans_apart_digitSpans).2.2 s hs t ht
    simp only [Bool.and_eq_true, decide_eq_true_eq] at hin hin'
    omega

end StepFlow.Text
