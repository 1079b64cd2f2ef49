/-
  StepFlow.Proofs.Script.Coincidence — operators and functions see no more than their operands.

  Two computations on two heaps that match (`Pairing.Matches`) coincide (`Act.Coincide`) if they
  meet the same fault or give what is related, on heaps that match again. The pairing has grown
  by containers and NaNs that are new on both sides, the first new one of the one heap with the
  first of the other, and so on (`Pairing.Grows`). So neither what is not paired plays a part,
  nor how many containers and NaNs there have been before.

  Proved, for all values and heaps, which may be shared and cyclic:
  (1) `BinaryOp.apply_coincides`: an operator does alike with operands that are alike.
  (2) `Builtin.apply_coincides`: so does a function.
-/

import StepFlow.Proofs.Script.Atomicity
import StepFlow.Proofs.Value.Likeness
import StepFlow.Run.Handler

namespace StepFlow

/-! ## Pairings that grow -/

namespace Pairing

/-- The second pairing pairs all that the first one does. -/
structure Within (p q : Pairing) : Prop where
  refs {r s : Ref} : p.refs r s → q.refs r s
  nans {a b : Nat} : p.nans a b → q.nans a b

/-- The heaps have grown by as much, and what is paired now was paired before, or is new and the
    two are as late as each other. -/
structure Grows (p : Pairing) (h k : Heap) (q : Pairing) (h' k' : Heap) : Prop extends p.Within q where
  newRefs {r s : Nat} : q.refs r s → p.refs r s ∨ (h.cells.size ≤ r ∧ r + k.cells.size = h.cells.size + s)
  newNans {a b : Nat} : q.nans a b → p.nans a b ∨ (h.nextNan ≤ a ∧ a + k.nextNan = h.nextNan + b)
  paired {r s : Nat} : h.cells.size ≤ r → r < h'.cells.size → r + k.cells.size = h.cells.size + s → q.refs r s
  sizes : h.cells.size ≤ h'.cells.size ∧ h'.cells.size + k.cells.size = h.cells.size + k'.cells.size
  labels : h.nextNan ≤ h'.nextNan ∧ h'.nextNan + k.nextNan = h.nextNan + k'.nextNan

variable {p q q' : Pairing} {h k h' k' h'' k'' : Heap}

theorem Within.trans (hp : p.Within q) (hq : q.Within q') : p.Within q' :=
  ⟨fun hr => hq.refs (hp.refs hr), fun hn => hq.nans (hp.nans hn)⟩

theorem Grows.refl (p : Pairing) (h k : Heap) : p.Grows h k p h k :=
  ⟨⟨id, id⟩, .inl, .inl, fun hle hlt _ => absurd hlt (Nat.not_lt.mpr hle), ⟨Nat.le_refl _, rfl⟩, ⟨Nat.le_refl _, rfl⟩⟩

theorem Grows.trans (hp : p.Grows h k q h' k') (hq : q.Grows h' k' q' h'' k'') : p.Grows h k q' h'' k'' := by
  have hsizes := hp.sizes
  have hlabels := hp.labels
  refine ⟨hp.toWithin.trans hq.toWithin, fun hr => ?_, fun hn => ?_, fun {r s} hle hlt heq => ?_, ?_, ?_⟩
  · rcases hq.newRefs hr with hr | hr
    · exact hp.newRefs hr
    · exact .inr (by omega)
  · rcases hq.newNans hn with hn | hn
    · exact hp.newNans hn
    · exact .inr (by omega)
  · by_cases hold : r < h'.cells.size
    · exact hq.refs (hp.paired hle hold heq)
    · exact hq.paired (by omega) hlt (by omega)
  · have := hq.sizes
    omega
  · have := hq.labels
    omega

theorem Scalars.within {s t : Scalar} (hs : p.Scalars s t) (hw : p.Within q) : q.Scalars s t := by
  cases hs with
  | null => exact .null
  | bool b => exact .bool b
  | int n => exact .int n
  | float x => exact .float x
  | nan hn => exact .nan (hw.nans hn)
  | str s => exact .str s

theorem Values.within {a b : Value} (ha : p.Values a b) (hw : p.Within q) : q.Values a b := by
  cases ha with
  | scalar hs => exact .scalar (hs.within hw)
  | ref hr => exact .ref (hw.refs hr)

theorem values_within {xs ys : List Value} (hx : List.Forall₂ p.Values xs ys) (hw : p.Within q) :
    List.Forall₂ q.Values xs ys :=
  hx.imp fun _ _ ha => ha.within hw

theorem entries_within {es fs : List (Scalar × Value)} (he : List.Forall₂ p.Entries es fs) (hw : p.Within q) :
    List.Forall₂ q.Entries es fs :=
  he.imp fun _ _ h => ⟨h.1.within hw, h.2.within hw⟩

theorem Cells.within {c d : Cell} (hc : p.Cells c d) (hw : p.Within q) : q.Cells c d := by
  cases hc with
  | list hx => exact .list (values_within hx hw)
  | object he => exact .object (entries_within he hw)

/-- Two containers more, which are paired. -/
def alloc (p : Pairing) (h k : Heap) : Pairing :=
  { p with refs := fun (r s : Nat) => p.refs r s ∨ (r = h.cells.size ∧ s = k.cells.size) }

/-- Two NaNs more, which are paired. -/
def label (p : Pairing) (h k : Heap) : Pairing :=
  { p with nans := fun a b => p.nans a b ∨ (a = h.nextNan ∧ b = k.nextNan) }

theorem InStep.eq_iff {n m a b : Nat} (hl : InStep n m a b) : a = n ↔ b = m := by
  unfold InStep at hl
  omega

theorem InStep.succ {n m a b : Nat} (hl : InStep n m a b) : InStep (n + 1) (m + 1) a b := by
  unfold InStep at hl ⊢
  omega

theorem inStep_next (n m : Nat) : InStep (n + 1) (m + 1) n m := .inl ⟨Nat.lt_succ_self n, Nat.lt_succ_self m⟩

theorem cell_alloc_ne {h : Heap} {c : Cell} {r : Ref} (hr : r ≠ h.cells.size) : (h.alloc c).2.cell r = h.cell r := by
  simp only [Heap.cell, Heap.alloc, Array.getD_eq_getD_getElem?, Array.getElem?_push, if_neg hr]

theorem cell_alloc_new (h : Heap) (c : Cell) : (h.alloc c).2.cell h.cells.size = c := by
  simp [Heap.cell, Heap.alloc]

theorem alloc_grows (p : Pairing) (h k : Heap) (c d : Cell) :
    p.Grows h k (p.alloc h k) (h.alloc c).2 (k.alloc d).2 := by
  refine ⟨⟨.inl, id⟩, ?_, .inl, fun hle hlt heq => .inr ?_, ?_, ⟨Nat.le_refl _, rfl⟩⟩
  · rintro r s (hr | ⟨rfl, rfl⟩)
    · exact .inl hr
    · exact .inr ⟨Nat.le_refl _, rfl⟩
  · simp only [Heap.alloc, Array.size_push] at hlt
    omega
  · simp only [Heap.alloc, Array.size_push]
    omega

theorem alloc_matches (hm : p.Matches h k) {c d : Cell} (hc : p.Cells c d) :
    (p.alloc h k).Matches (h.alloc c).2 (k.alloc d).2 := by
  have hw : p.Within (p.alloc h k) := (alloc_grows p h k c d).toWithin
  refine ⟨?_, hm.nans_iff, ?_, hm.given, ?_⟩
  · rintro r r' s s' (hr | ⟨rfl, rfl⟩) (hr' | ⟨rfl, rfl⟩)
    · exact hm.refs_iff hr hr'
    · exact (hm.inside hr).eq_iff
    · rw [eq_comm, (hm.inside hr').eq_iff, eq_comm]
    · exact ⟨fun _ => rfl, fun _ => rfl⟩
  · rintro r s hr
    simp only [Heap.alloc, Array.size_push]
    rcases hr with hr | ⟨rfl, rfl⟩
    · exact (hm.inside hr).succ
    · exact inStep_next _ _
  · rintro r s hr
    by_cases hnew : r = h.cells.size
    · have hnew' : s = k.cells.size := by
        rcases hr with hr | ⟨-, rfl⟩
        · exact (hm.inside hr).eq_iff.mp hnew
        · rfl
      rw [hnew, hnew', cell_alloc_new, cell_alloc_new]
      exact hc.within hw
    · rcases hr with hr | ⟨rfl, -⟩
      · rw [cell_alloc_ne hnew, cell_alloc_ne (mt (hm.inside hr).eq_iff.mpr hnew)]
        exact (hm.cell hr).within hw
      · exact absurd rfl hnew

theorem label_matches (hm : p.Matches h k) :
    (p.label h k).Matches { h with nextNan := h.nextNan + 1 } { k with nextNan := k.nextNan + 1 } := by
  have hw : p.Within (p.label h k) := ⟨id, .inl⟩
  refine ⟨hm.refs_iff, ?_, hm.inside, ?_, fun hr => (hm.cell hr).within hw⟩
  · rintro a a' b b' (hn | ⟨rfl, rfl⟩) (hn' | ⟨rfl, rfl⟩)
    · exact hm.nans_iff hn hn'
    · exact (hm.given hn).eq_iff
    · rw [eq_comm, (hm.given hn').eq_iff, eq_comm]
    · exact ⟨fun _ => rfl, fun _ => rfl⟩
  · rintro a b (hn | ⟨rfl, rfl⟩)
    · exact (hm.given hn).succ
    · exact inStep_next _ _

theorem label_grows (p : Pairing) (h k : Heap) :
    p.Grows h k (p.label h k) { h with nextNan := h.nextNan + 1 } { k with nextNan := k.nextNan + 1 } := by
  refine ⟨⟨id, .inl⟩, .inl, ?_, fun hle hlt _ => absurd hlt (Nat.not_lt.mpr hle), ⟨Nat.le_refl _, rfl⟩, ?_⟩
  · rintro a b (hn | ⟨rfl, rfl⟩)
    · exact .inl hn
    · exact .inr ⟨Nat.le_refl _, rfl⟩
  · dsimp only
    omega

/-- Two computations end alike: with the same error, or with what is related in the heaps that they leave. -/
inductive Ends {ε α β : Type} (p : Pairing) (h k : Heap) (rel : Pairing → α → β → Prop) :
    Except ε α × Heap → Except ε β × Heap → Prop
  | intro {x : Except ε α} {y : Except ε β} {h' k' : Heap} (q : Pairing) :
    p.Grows h k q h' k' → q.Matches h' k' → Agree (rel q) x y → Ends p h k rel (x, h') (y, k')

end Pairing

/-! ## Computations that coincide -/

namespace Act

variable {ε δ α β γ η : Type} {p : Pairing}

/-- Whenever the two heaps match, the computations on them end alike. -/
def Coincide (p : Pairing) (rel : Pairing → α → β → Prop) (a : Act ε α) (b : Act ε β) : Prop :=
  ∀ h k, p.Matches h k → p.Ends h k rel (a.run h) (b.run k)

variable {rel : Pairing → α → β → Prop} {rel' : Pairing → γ → η → Prop}

theorem coincide_ofExcept {x : Except ε α} {y : Except ε β} (hxy : Agree (rel p) x y) :
    Coincide p rel (ofExcept x) (ofExcept y) :=
  fun h k hm => .intro p (.refl p h k) hm hxy

theorem coincide_pure {x : α} {y : β} (hxy : rel p x y) : Coincide p rel (pure x : Act ε α) (pure y) :=
  coincide_ofExcept (.ok hxy)

theorem coincide_throw (e : ε) : Coincide p rel (throw e : Act ε α) (throw e) :=
  coincide_ofExcept (.error e)

theorem coincide_get : Coincide p Pairing.Matches (get : Act ε Heap) get :=
  fun h k hm => .intro p (.refl p h k) hm (.ok hm)

/-- That the heaps match may be used to show that the computations coincide. -/
theorem coincide_of_matches {a : Act ε α} {b : Act ε β} (hab : ∀ h k, p.Matches h k → Coincide p rel a b) :
    Coincide p rel a b :=
  fun h k hm => hab h k hm h k hm

theorem coincide_look {f : Heap → Except ε α} {g : Heap → Except ε β}
    (hfg : ∀ h k, p.Matches h k → Agree (rel p) (f h) (g k)) : Coincide p rel (look f) (look g) :=
  fun h k hm => .intro p (.refl p h k) hm (hfg h k hm)

theorem coincide_alloc {c d : Cell} (hc : p.Cells c d) : Coincide p Pairing.Values (alloc c : Act ε Value) (alloc d) :=
  fun h k hm => .intro (p.alloc h k) (Pairing.alloc_grows p h k c d) (Pairing.alloc_matches hm hc)
    (.ok (.ref (.inr ⟨rfl, rfl⟩)))

theorem coincide_float (x : Float) : Coincide p Pairing.Values (float x : Act ε Value) (float x) := by
  intro h k hm
  show p.Ends h k Pairing.Values (.ok (h.float x).1, (h.float x).2) (.ok (k.float x).1, (k.float x).2)
  unfold Heap.float
  split
  · exact .intro (p.label h k) (Pairing.label_grows p h k) (Pairing.label_matches hm)
      (.ok (.scalar (.nan (.inr ⟨rfl, rfl⟩))))
  · exact .intro p (.refl p h k) hm (.ok (.scalar (.float x)))

theorem Coincide.bind {a : Act ε α} {b : Act ε β} {f : α → Act ε γ} {g : β → Act ε η} (hab : Coincide p rel a b)
    (hfg : ∀ q x y, p.Within q → rel q x y → Coincide q rel' (f x) (g y)) :
    Coincide p rel' (a >>= f) (b >>= g) := by
  intro h k hm
  have hends := hab h k hm
  show p.Ends h k rel' (ExceptT.bindCont f (a.run h).1 (a.run h).2) (ExceptT.bindCont g (b.run k).1 (b.run k).2)
  generalize a.run h = x at hends ⊢
  generalize b.run k = y at hends ⊢
  cases hends with
  | @intro _ _ h' k' q hg hq hxy =>
    cases hxy with
    | error e => exact .intro q hg hq (.error e)
    | @ok x y hxy =>
      have hends := hfg q x y hg.toWithin hxy h' k' hq
      show p.Ends h k rel' ((f x).run h') ((g y).run k')
      generalize (f x).run h' = x' at hends ⊢
      generalize (g y).run k' = y' at hends ⊢
      cases hends with
      | intro q' hg' hq' hxy' => exact .intro q' (hg.trans hg') hq' hxy'

theorem Coincide.adapt {a : Act ε α} {b : Act ε β} (hab : Coincide p rel a b) (f : ε → δ) :
    Coincide p rel (ExceptT.adapt f a : Act δ α) (ExceptT.adapt f b) := by
  intro h k hm
  have hends := hab h k hm
  show p.Ends h k rel ((a.run h).1.mapError f, (a.run h).2) ((b.run k).1.mapError f, (b.run k).2)
  generalize a.run h = x at hends ⊢
  generalize b.run k = y at hends ⊢
  cases hends with
  | intro q hg hq hxy =>
    cases hxy with
    | error e => exact .intro q hg hq (.error (f e))
    | ok hxy => exact .intro q hg hq (.ok hxy)

/-- What both do first gives them the same. -/
theorem Coincide.after {a b : Act ε α} {f : α → Act ε γ} {g : α → Act ε η} (hab : Coincide p (fun _ => Eq) a b)
    (hfg : ∀ q x, p.Within q → Coincide q rel' (f x) (g x)) : Coincide p rel' (a >>= f) (b >>= g) := by
  refine hab.bind fun q x y hw hxy => ?_
  subst hxy
  exact hfg q x hw

theorem coincide_same (x : Except ε α) : Coincide p (fun _ => Eq) (ofExcept x) (ofExcept x) :=
  coincide_ofExcept (.of_eq rfl)

/-- What is done unless something is wrong. -/
theorem coincide_unless {c : Prop} [Decidable c] {e : ε} {f : Unit → Act ε α} {g : Unit → Act ε β}
    (hfg : Coincide p rel (f ()) (g ())) :
    Coincide p rel (if c then throw e >>= f else f ()) (if c then throw e >>= g else g ()) := by
  split
  · exact coincide_throw e
  · exact hfg

theorem coincide_looks {f g : Heap → Except ε α} (hfg : ∀ h k, p.Matches h k → f h = g k) :
    Coincide p (fun _ => Eq) (look f) (look g) :=
  coincide_look fun h k hm => .of_eq (hfg h k hm)

end Act

open Act Pairing

variable {p : Pairing} {a a' b b' : Value}

/-! ## Operators -/

namespace Operator

theorem arithmetic_coincides {ints : Int → Int → Act Trouble Value} {floats : Float → Float → Act Trouble Value}
    (hi : ∀ n m, Coincide p Values (ints n m) (ints n m))
    (hf : ∀ q x y, p.Within q → Coincide q Values (floats x y) (floats x y)) (ha : p.Values a a')
    (hb : p.Values b b') : Coincide p Values (arithmetic ints floats a b) (arithmetic ints floats a' b') := by
  cases ha with
  | ref _ => exact coincide_throw _
  | scalar hs =>
    cases hb with
    | ref _ => exact coincide_throw _
    | scalar ht =>
      simp only [arithmetic, hs.toInt?, ht.toInt?, hs.isNumber, ht.isNumber, hs.toFloat, ht.toFloat]
      split
      · exact hi _ _
      · split
        · exact (coincide_same _).after fun q x hw => (coincide_same _).after fun q' y hw' => hf q' x y (hw.trans hw')
        · exact coincide_throw _

theorem add_coincides (ha : p.Values a a') (hb : p.Values b b') : Coincide p Values (add a b) (add a' b') := by
  have hnumbers := arithmetic_coincides (fun n m => coincide_pure (.scalar (.int (n + m))))
    (fun _ x y _ => coincide_float (x + y)) ha hb
  cases ha with
  | scalar hs =>
    cases hb with
    | scalar ht =>
      cases hs with
      | str s =>
        cases ht with
        | str t => exact coincide_pure (.scalar (.str (s ++ t)))
        | _ => exact hnumbers
      | _ => exact hnumbers
    | ref _ => cases hs <;> exact hnumbers
  | ref hr =>
    cases hb with
    | scalar _ => exact hnumbers
    | ref hr' =>
      refine coincide_get.bind fun q h k hw hm => ?_
      rcases hm.cells (hw.refs hr) with ⟨xs, ys, hx, hy, hxs⟩ | ⟨es, fs, hx, hy, -⟩
      · rcases hm.cells (hw.refs hr') with ⟨xs', ys', hx', hy', hxs'⟩ | ⟨es', fs', hx', hy', -⟩
        · simp only [hx, hy, hx', hy']
          exact coincide_alloc (.list (List.rel_append hxs hxs'))
        · simp only [hx, hy, hx', hy']
          exact coincide_throw _
      · simp only [hx, hy]
        exact coincide_throw _

theorem sub_coincides (ha : p.Values a a') (hb : p.Values b b') : Coincide p Values (sub a b) (sub a' b') :=
  arithmetic_coincides (fun n m => coincide_pure (.scalar (.int (n - m)))) (fun _ x y _ => coincide_float (x - y)) ha hb

theorem repeatList_alike {xs ys : List Value} (hx : List.Forall₂ p.Values xs ys) (n : Nat) :
    List.Forall₂ p.Values (repeatList xs n) (repeatList ys n) := by
  have hmany : List.Forall₂ p.Values (List.replicate n xs).flatten (List.replicate n ys).flatten := by
    induction n with
    | zero => exact .nil
    | succ n ih => exact List.rel_append hx ih
  unfold repeatList
  cases hx with
  | nil => exact .nil
  | cons => exact hmany

theorem repeated_coincides (ha : p.Values a a') (n : Int) : Coincide p Values (repeated a n) (repeated a' n) := by
  unfold repeated
  cases ha with
  | scalar hs =>
    cases hs with
    | str s =>
      exact (coincide_same _).after fun _ k _ => coincide_unless (coincide_pure (.scalar (.str _)))
    | _ => exact coincide_throw _
  | ref hr =>
    refine coincide_get.bind fun q h k hw hm => ?_
    rcases hm.cells (hw.refs hr) with ⟨xs, ys, hx, hy, hxs⟩ | ⟨es, fs, hx, hy, -⟩
    · simp only [hx, hy]
      exact (coincide_same _).after fun _ n hw' => coincide_alloc (.list (repeatList_alike (values_within hxs hw') n))
    · simp only [hx, hy]
      exact coincide_throw _

theorem isSequence_alike (ha : p.Values a a') : isSequence a = isSequence a' := by
  cases ha with
  | scalar hs => cases hs <;> rfl
  | ref _ => rfl

theorem mul_coincides (ha : p.Values a a') (hb : p.Values b b') : Coincide p Values (mul a b) (mul a' b') := by
  have hnumbers := arithmetic_coincides (fun n m => coincide_pure (.scalar (.int (n * m))))
    (fun _ x y _ => coincide_float (x * y)) ha hb
  have hleft := repeated_coincides ha
  have hright := repeated_coincides hb
  unfold mul
  extract_lets count?
  have hcount : ∀ {x y : Value}, p.Values x y → count? x = count? y := by
    intro x y hxy
    cases hxy with
    | scalar hs => exact hs.toInt?
    | ref _ => rfl
  rw [isSequence_alike ha, isSequence_alike hb, hcount ha, hcount hb]
  split
  · exact hleft _
  · exact hright _
  · exact hnumbers

theorem unlessZero_coincides {c : Prop} [Decidable c] {x y : Act Trouble Value} (hxy : Coincide p Values x y) :
    Coincide p Values (if c then throw .zeroDivision else x) (if c then throw .zeroDivision else y) := by
  split
  · exact coincide_throw _
  · exact hxy

theorem div_coincides (ha : p.Values a a') (hb : p.Values b b') : Coincide p Values (div a b) (div a' b') := by
  refine arithmetic_coincides (fun n m => unlessZero_coincides ?_)
    (fun _ x y _ => unlessZero_coincides (coincide_float _)) ha hb
  split
  · exact coincide_float _
  · exact coincide_throw _

theorem mod_coincides (ha : p.Values a a') (hb : p.Values b b') : Coincide p Values (mod a b) (mod a' b') := by
  have hnumbers := arithmetic_coincides
    (fun n m => unlessZero_coincides (c := m = 0) (coincide_pure (.scalar (.int (Int.fmod n m)))))
    (fun _ x y _ => unlessZero_coincides (c := (y == 0.0) = true) (coincide_float (Binary64.modulo x y))) ha hb
  cases ha with
  | scalar hs =>
    cases hs with
    | str s =>
      exact (coincide_looks fun _ _ hm => Template.fill_alike hm s hb).after fun _ t _ =>
        coincide_pure (.scalar (.str t))
    | _ => exact hnumbers
  | ref _ => exact hnumbers

end Operator

theorem BinaryOp.apply_coincides (op : BinaryOp) (ha : p.Values a a') (hb : p.Values b b') :
    Coincide p Values (op.apply a b) (op.apply a' b') := by
  unfold BinaryOp.apply
  cases op with
  | add => exact Operator.add_coincides ha hb
  | sub => exact Operator.sub_coincides ha hb
  | mul => exact Operator.mul_coincides ha hb
  | div => exact Operator.div_coincides ha hb
  | mod => exact Operator.mod_coincides ha hb
  | eq | ne => exact (coincide_looks fun _ _ hm => hm.equal ha hb).after fun _ _ _ => coincide_pure (.scalar (.bool _))
  | order op =>
    exact (coincide_looks fun _ _ hm => hm.order op ha hb).after fun _ x _ => coincide_pure (.scalar (.bool x))

/-! ## Functions -/

namespace Builtin

theorem size_alike {h k : Heap} (hm : p.Matches h k) (ha : p.Values a a') : size h a = size k a' := by
  cases ha with
  | scalar hs => cases hs <;> rfl
  | ref hr =>
    rcases hm.cells hr with ⟨xs, ys, hx, hy, hxs⟩ | ⟨es, fs, hx, hy, hes⟩
    · simp only [size, hx, hy, hxs.length_eq]
    · simp only [size, hx, hy, hes.length_eq]

theorem toInt_alike {h k : Heap} (hm : p.Matches h k) (ha : p.Values a a') : toInt h a = toInt k a' := by
  have hkind := hm.kind ha
  cases ha with
  | scalar hs => cases hs <;> rfl
  | ref _ => simp only [toInt, hkind]

theorem integerArgument_alike {h k : Heap} (hm : p.Matches h k) (ha : p.Values a a') :
    integerArgument h a = integerArgument k a' := by
  have hkind := hm.kind ha
  cases ha with
  | scalar hs => cases hs <;> rfl
  | ref _ => simp only [integerArgument, hkind]

theorem toIntInBase_alike {h k : Heap} (hm : p.Matches h k) (ha : p.Values a a') (hb : p.Values b b') :
    toIntInBase h a b = toIntInBase k a' b' := by
  unfold toIntInBase
  rw [integerArgument_alike hm hb]
  cases ha with
  | scalar hs => cases hs <;> rfl
  | ref _ => rfl

theorem toFloat_coincides (ha : p.Values a a') : Coincide p Values (toFloat a) (toFloat a') := by
  cases ha with
  | scalar hs =>
    cases hs with
    | str s =>
      simp only [toFloat]
      split
      · exact coincide_float _
      · exact coincide_throw _
    | float x => exact coincide_pure (.scalar (.float x))
    | nan hn => exact coincide_pure (.scalar (.nan hn))
    | null => exact coincide_throw _
    | bool | int => exact (coincide_same _).after fun _ x _ => coincide_float x
  | ref hr =>
    refine coincide_get.bind fun q h k hw hm => ?_
    rw [hm.kind (.ref (hw.refs hr))]
    exact coincide_throw _

theorem absolute_coincides (ha : p.Values a a') : Coincide p Values (absolute a) (absolute a') := by
  cases ha with
  | scalar hs =>
    cases hs with
    | null | str => exact coincide_throw _
    | float | nan => exact coincide_float _
    | bool | int => exact coincide_pure (.scalar (.int _))
  | ref hr =>
    refine coincide_get.bind fun q h k hw hm => ?_
    rw [hm.kind (.ref (hw.refs hr))]
    exact coincide_throw _

theorem members_agree {h k : Heap} (hm : p.Matches h k) (ha : p.Values a a') :
    Agree (List.Forall₂ p.Values) (members h a) (members k a') := by
  cases ha with
  | scalar hs =>
    cases hs with
    | str s => exact .ok (List.forall₂_same.mpr fun v hv => by
        obtain ⟨c, -, rfl⟩ := List.mem_map.mp hv
        exact .scalar (.str _))
    | _ => exact .error _
  | ref hr =>
    rcases hm.cells hr with ⟨xs, ys, hx, hy, hxs⟩ | ⟨es, fs, hx, hy, hes⟩
    · simp only [members, hx, hy]
      exact .ok hxs
    · simp only [members, hx, hy]
      refine .ok (List.forall₂_map_left_iff.mpr (List.forall₂_map_right_iff.mpr ?_))
      exact hes.imp fun _ _ he => .scalar he.1

theorem extreme_agree {h k : Heap} (hm : p.Matches h k) (op : OrderOp) {vs ws : List Value}
    (hv : List.Forall₂ p.Values vs ws) (ha : p.Values a a') :
    Agree p.Values (extreme h op a vs) (extreme k op a' ws) := by
  induction hv generalizing a a' with
  | nil => exact .ok ha
  | cons hb _ ih =>
    unfold extreme
    rw [hm.order op hb ha]
    refine .after _ fun beyond => ?_
    cases beyond with
    | true => exact ih hb
    | false => exact ih ha

theorem extremeOfAll_agree {h k : Heap} (hm : p.Matches h k) (f : Builtin) (op : OrderOp) (vs ws : List Value) :
    List.Forall₂ p.Values vs ws →
      Agree p.Values (match vs with | [] => throw (.value (.emptySequence f.text)) | v :: vs => extreme h op v vs)
        (match ws with | [] => throw (.value (.emptySequence f.text)) | w :: ws => extreme k op w ws) := by
  intro hv
  cases hv with
  | nil => exact .error _
  | cons ha hv => exact extreme_agree hm op hv ha

theorem extremeOf_agree {h k : Heap} (hm : p.Matches h k) (f : Builtin) (op : OrderOp) {vs ws : List Value}
    (hv : List.Forall₂ p.Values vs ws) : Agree p.Values (extremeOf h f op vs) (extremeOf k f op ws) := by
  unfold extremeOf
  cases hv with
  | nil => exact .error _
  | cons ha hrest =>
    cases hrest with
    | nil => exact (members_agree hm ha).bind (extremeOfAll_agree hm f op)
    | cons hb hrest => exact extremeOfAll_agree hm f op _ _ (.cons ha (.cons hb hrest))

theorem null_or_not (ha : p.Values a a') : (a = .null ∧ a' = .null) ∨ (a ≠ .null ∧ a' ≠ .null) := by
  cases ha with
  | scalar hs =>
    cases hs with
    | null => exact .inl ⟨rfl, rfl⟩
    | _ => exact .inr ⟨fun h => (by cases h), fun h => (by cases h)⟩
  | ref _ => exact .inr ⟨fun h => (by cases h), fun h => (by cases h)⟩

theorem rounded_coincides (ha : p.Values a a') (hb : p.Values b b') :
    Coincide p Values (rounded a b) (rounded a' b') := by
  refine coincide_get.bind fun q h k hw hm => ?_
  cases ha with
  | ref hr =>
    dsimp only
    rw [hm.kind (.ref (hw.refs hr))]
    exact coincide_throw _
  | @scalar s t hs =>
    dsimp only
    rw [hs.isNumber, hs.kind]
    refine coincide_unless ?_
    rcases null_or_not hb with ⟨rfl, rfl⟩ | ⟨hn, hn'⟩
    · have hwhole : roundWhole s = roundWhole t := by cases hs <;> rfl
      dsimp only
      rw [hwhole]
      exact (coincide_same _).after fun _ n _ => coincide_pure (.scalar (.int n))
    · simp only [integerArgument_alike hm (hb.within hw)]
      refine (coincide_same _).after fun _ n _ => ?_
      cases hs with
      | float x => exact (coincide_same _).after fun _ y _ => coincide_float y
      | nan _ => exact coincide_float _
      | _ => exact coincide_pure (.scalar (.int _))

theorem listHolds_alike {h k : Heap} (hm : p.Matches h k) (ha : p.Values a a') {xs ys : List Value}
    (hx : List.Forall₂ p.Values xs ys) : listHolds h a xs = listHolds k a' ys := by
  induction hx with
  | nil => rfl
  | cons hb _ ih => simp only [listHolds, hm.same hb ha, ih]

theorem holds_alike {h k : Heap} (hm : p.Matches h k) (ha : p.Values a a') (hb : p.Values b b') :
    holds h a b = holds k a' b' := by
  have hkind := hm.kind hb
  cases ha with
  | scalar hs =>
    cases hs with
    | str s =>
      cases hb with
      | scalar ht => cases ht <;> rfl
      | ref _ => simp only [holds, hkind]
    | _ => rfl
  | ref hr =>
    rcases hm.cells hr with ⟨xs, ys, hx, hy, hxs⟩ | ⟨es, fs, hx, hy, hes⟩
    · simp only [holds, hx, hy, listHolds_alike hm hb hxs]
    · cases hb with
      | scalar ht =>
        have hl := hm.lookupKey hes ht
        simp only [holds, hx, hy]
        generalize lookupKey es _ = v at hl ⊢
        generalize lookupKey fs _ = w at hl ⊢
        cases hl <;> rfl
      | ref _ => simp only [holds, hx, hy, hkind]

theorem onlyArgument_agree (callee : String) {vs ws : List Value} (hv : List.Forall₂ p.Values vs ws) :
    Agree p.Values (onlyArgument callee vs) (onlyArgument callee ws) := by
  cases hv with
  | nil => exact .error _
  | cons ha hrest =>
    cases hrest with
    | nil => exact .ok ha
    | cons _ hrest =>
      simp only [onlyArgument, List.length_cons, hrest.length_eq]
      exact .error _

theorem soleArgument_agree (f : Builtin) {vs ws : List Value} (hv : List.Forall₂ p.Values vs ws) :
    Agree p.Values (soleArgument f vs) (soleArgument f ws) := by
  cases hv with
  | nil => exact .error _
  | cons ha hrest =>
    cases hrest with
    | nil => exact .ok ha
    | cons _ hrest =>
      simp only [soleArgument, List.length_cons, hrest.length_eq]
      exact .error _

theorem cased_coincides (change : String → String) {vs ws : List Value} (hv : List.Forall₂ p.Values vs ws) :
    Coincide p Values (cased change vs) (cased change ws) :=
  (coincide_ofExcept (onlyArgument_agree unnamed hv)).bind fun _ _ _ _ ha =>
    (coincide_looks fun _ _ hm => hm.plainText ha).after fun _ _ _ => coincide_pure (.scalar (.str _))

theorem apply_coincides (f : Builtin) {vs ws : List Value} (hv : List.Forall₂ p.Values vs ws) :
    Coincide p Values (f.apply vs) (f.apply ws) := by
  unfold Builtin.apply
  cases f with
  | len =>
    exact (coincide_ofExcept (soleArgument_agree _ hv)).bind fun _ _ _ _ ha =>
      (coincide_looks fun _ _ hm => size_alike hm ha).after fun _ _ _ => coincide_pure (.scalar (.int _))
  | str =>
    exact (coincide_ofExcept (onlyArgument_agree _ hv)).bind fun _ _ _ _ ha =>
      (coincide_looks fun _ _ hm => hm.plainText ha).after fun _ _ _ => coincide_pure (.scalar (.str _))
  | abs =>
    exact (coincide_ofExcept (soleArgument_agree _ hv)).bind fun _ _ _ _ ha => absolute_coincides ha
  | min | max => exact coincide_look fun _ _ hm => extremeOf_agree hm _ _ hv
  | lower | upper => exact cased_coincides _ hv
  | int =>
    rcases hv with _ | ⟨ha, _ | ⟨hb, _ | ⟨hc, hrest⟩⟩⟩
    · exact coincide_pure (.scalar (.int 0))
    · exact (coincide_looks fun _ _ hm => toInt_alike hm ha).after fun _ _ _ => coincide_pure (.scalar (.int _))
    · exact (coincide_looks fun _ _ hm => toIntInBase_alike hm ha hb).after fun _ _ _ =>
        coincide_pure (.scalar (.int _))
    · simp only [List.length_cons, hrest.length_eq]
      exact coincide_throw _
  | float =>
    rcases hv with _ | ⟨ha, _ | ⟨hb, hrest⟩⟩
    · exact coincide_float _
    · exact toFloat_coincides ha
    · simp only [List.length_cons, hrest.length_eq]
      exact coincide_throw _
  | bool =>
    rcases hv with _ | ⟨ha, _ | ⟨hb, hrest⟩⟩
    · exact coincide_pure (.scalar (.bool false))
    · refine coincide_get.bind fun q h k hw hm => ?_
      rw [hm.truth (ha.within hw)]
      exact coincide_pure (.scalar (.bool _))
    · simp only [List.length_cons, hrest.length_eq]
      exact coincide_throw _
  | round =>
    rcases hv with _ | ⟨ha, _ | ⟨hb, _ | ⟨hc, hrest⟩⟩⟩
    · exact coincide_throw _
    · exact rounded_coincides ha (.scalar .null)
    · exact rounded_coincides ha hb
    · simp only [List.length_cons, hrest.length_eq]
      exact coincide_throw _
  | contains =>
    rcases hv with _ | ⟨ha, _ | ⟨hb, _ | ⟨hc, hrest⟩⟩⟩
    · exact coincide_throw _
    · exact coincide_throw _
    · exact (coincide_looks fun _ _ hm => holds_alike hm ha hb).after fun _ _ _ => coincide_pure (.scalar (.bool _))
    · simp only [List.length_cons, hrest.length_eq]
      exact coincide_throw _

end Builtin

end StepFlow
