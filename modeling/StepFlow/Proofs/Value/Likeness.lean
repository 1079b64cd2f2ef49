/-
  StepFlow.Proofs.Value.Likeness — values that are alike, though they stand in two heaps.

  A pairing takes containers of one heap for containers of another, and NaNs for NaNs, one for
  one (`Pairing`). Two heaps match (`Pairing.Matches`) if paired containers hold what is alike:
  the same scalars, NaNs that are paired, containers that are paired. They may be shared and
  cyclic, and the heaps may hold anything else besides.

  Proved, for values that are alike in heaps that match:
  (1) `Matches.equal`, `Matches.order`: they are equal, or less, exactly if their likes are, and
      comparing them meets the same trouble.
  (2) `Matches.display`: they have the same text. A heap has room enough to show its values
      (`displayWithin_room`), so its size plays no part.
  (3) `Template.fill_alike`: a template that is filled with them gives the same text.
-/

import Mathlib.Data.Finset.Card
import Mathlib.Data.List.Forall2
import StepFlow.Proofs.Value.Renaming
import StepFlow.Value.Template

namespace StepFlow

/-! ## Pairings -/

/-- Which containers of one heap stand for which of another, and which NaNs for which. -/
structure Pairing where
  refs : Ref → Ref → Prop
  nans : Nat → Nat → Prop

namespace Pairing

inductive Scalars (p : Pairing) : Scalar → Scalar → Prop
  | null : Scalars p .null .null
  | bool (b : Bool) : Scalars p (.bool b) (.bool b)
  | int (n : Int) : Scalars p (.int n) (.int n)
  | float (x : Float) : Scalars p (.float x) (.float x)
  | nan {a b : Nat} : p.nans a b → Scalars p (.nan a) (.nan b)
  | str (s : String) : Scalars p (.str s) (.str s)

inductive Values (p : Pairing) : Value → Value → Prop
  | scalar {s t : Scalar} : p.Scalars s t → Values p (.scalar s) (.scalar t)
  | ref {r s : Ref} : p.refs r s → Values p (.ref r) (.ref s)

def Entries (p : Pairing) (e f : Scalar × Value) : Prop := p.Scalars e.1 f.1 ∧ p.Values e.2 f.2

inductive Cells (p : Pairing) : Cell → Cell → Prop
  | list {xs ys : List Value} : List.Forall₂ p.Values xs ys → Cells p (.list xs) (.list ys)
  | object {es fs : List (Scalar × Value)} : List.Forall₂ p.Entries es fs → Cells p (.object es) (.object fs)

/-- Both numbers have been given out before two counters, or both will be, at the same time. -/
def InStep (n m a b : Nat) : Prop := (a < n ∧ b < m) ∨ a + m = n + b

/-- What is paired is alike, and is paired with nothing else. It is there in both heaps, or in neither. -/
structure Matches (p : Pairing) (h k : Heap) : Prop where
  refs_iff {r r' s s' : Ref} : p.refs r s → p.refs r' s' → (r = r' ↔ s = s')
  nans_iff {a a' b b' : Nat} : p.nans a b → p.nans a' b' → (a = a' ↔ b = b')
  inside {r s : Ref} : p.refs r s → InStep h.cells.size k.cells.size r s
  given {a b : Nat} : p.nans a b → InStep h.nextNan k.nextNan a b
  cell {r s : Ref} : p.refs r s → p.Cells (h.cell r) (k.cell s)

end Pairing

/-- Two computations meet the same trouble, or give what is related. -/
inductive Agree {ε α β : Type} (rel : α → β → Prop) : Except ε α → Except ε β → Prop
  | ok {x : α} {y : β} : rel x y → Agree rel (.ok x) (.ok y)
  | error (e : ε) : Agree rel (.error e) (.error e)

namespace Agree

variable {ε α β γ δ : Type} {rel : α → β → Prop} {rel' : γ → δ → Prop}

theorem bind {a : Except ε α} {b : Except ε β} {f : α → Except ε γ} {g : β → Except ε δ} (hab : Agree rel a b)
    (hfg : ∀ x y, rel x y → Agree rel' (f x) (g y)) : Agree rel' (a >>= f) (b >>= g) := by
  cases hab with
  | ok h => exact hfg _ _ h
  | error e => exact .error e

/-- What both do first, they do alike. -/
theorem after (a : Except ε α) {f : α → Except ε γ} {g : α → Except ε δ} (hfg : ∀ x, Agree rel' (f x) (g x)) :
    Agree rel' (a >>= f) (a >>= g) := by
  cases a with
  | ok x => exact hfg x
  | error e => exact .error e

theorem eq {a b : Except ε α} (h : Agree Eq a b) : a = b := by
  cases h with
  | ok h => rw [h]
  | error e => rfl

theorem of_eq {a b : Except ε α} (h : a = b) : Agree Eq a b := by
  subst h
  cases a with
  | ok x => exact .ok rfl
  | error e => exact .error e

end Agree

namespace Pairing

variable {p : Pairing} {h k : Heap}

/-! ## Scalars -/

namespace Scalars

variable {s t s' t' : Scalar}

theorem kind (h : p.Scalars s t) : s.kind = t.kind := by cases h <;> rfl

theorem isNumber (h : p.Scalars s t) : s.isNumber = t.isNumber := by cases h <;> rfl

theorem toInt? (h : p.Scalars s t) : s.toInt? = t.toInt? := by cases h <;> rfl

theorem toFloat (h : p.Scalars s t) : s.toFloat = t.toFloat := by cases h <;> rfl

theorem truncated (h : p.Scalars s t) : s.truncated = t.truncated := by cases h <;> rfl

theorem display (h : p.Scalars s t) : s.display = t.display := by cases h <;> rfl

theorem equal (h : p.Scalars s t) (h' : p.Scalars s' t') : s.equal s' = t.equal t' := by
  cases h <;> cases h' <;> rfl

theorem order (h : p.Scalars s t) (op : OrderOp) (h' : p.Scalars s' t') : s.order op s' = t.order op t' := by
  cases h <;> cases h' <;> rfl

end Scalars

namespace Matches

variable {s t s' t' : Scalar} {a b a' b' : Value}

theorem identicalScalars (hm : p.Matches h k) (hs : p.Scalars s t) (hs' : p.Scalars s' t') :
    s.identical s' = t.identical t' := by
  cases hs with
  | nan hn =>
    cases hs' with
    | nan hn' =>
      simp only [Scalar.identical]
      rw [Bool.eq_iff_iff, beq_iff_eq, beq_iff_eq]
      exact hm.nans_iff hn hn'
    | _ => rfl
  | _ => cases hs' <;> rfl

theorem sameScalars (hm : p.Matches h k) (hs : p.Scalars s t) (hs' : p.Scalars s' t') : s.same s' = t.same t' := by
  unfold Scalar.same
  rw [hm.identicalScalars hs hs', hs.equal hs']

/-! ## Values -/

theorem identical (hm : p.Matches h k) (ha : p.Values a b) (ha' : p.Values a' b') :
    a.identical a' = b.identical b' := by
  cases ha with
  | scalar hs =>
    cases ha' with
    | scalar hs' => exact hm.identicalScalars hs hs'
    | ref _ => rfl
  | ref hr =>
    cases ha' with
    | scalar _ => rfl
    | ref hr' =>
      simp only [Value.identical]
      rw [Bool.eq_iff_iff, beq_iff_eq, beq_iff_eq]
      exact hm.refs_iff hr hr'

/-- Paired containers are both lists or both objects. -/
theorem cells (hm : p.Matches h k) {r q : Ref} (hr : p.refs r q) :
    (∃ xs ys, h.cell r = .list xs ∧ k.cell q = .list ys ∧ List.Forall₂ p.Values xs ys) ∨
      ∃ es fs, h.cell r = .object es ∧ k.cell q = .object fs ∧ List.Forall₂ p.Entries es fs := by
  have hc := hm.cell hr
  generalize h.cell r = c at hc ⊢
  generalize k.cell q = d at hc ⊢
  cases hc with
  | list hxs => exact .inl ⟨_, _, rfl, rfl, hxs⟩
  | object hes => exact .inr ⟨_, _, rfl, rfl, hes⟩

theorem kind (hm : p.Matches h k) (ha : p.Values a b) : h.kind a = k.kind b := by
  cases ha with
  | scalar hs => exact hs.kind
  | ref hr =>
    rcases hm.cells hr with ⟨xs, ys, hx, hy, -⟩ | ⟨es, fs, hx, hy, -⟩
    · simp only [Heap.kind, hx, hy]
    · simp only [Heap.kind, hx, hy]

theorem truth (hm : p.Matches h k) (ha : p.Values a b) : h.truth a = k.truth b := by
  cases ha with
  | scalar hs => cases hs <;> rfl
  | ref hr =>
    rcases hm.cells hr with ⟨xs, ys, hx, hy, hxs⟩ | ⟨es, fs, hx, hy, hes⟩
    · simp only [Heap.truth, hx, hy]
      cases hxs <;> rfl
    · simp only [Heap.truth, hx, hy]
      cases hes <;> rfl

theorem lookupKey (hm : p.Matches h k) {es fs : List (Scalar × Value)} (hes : List.Forall₂ p.Entries es fs)
    (hs : p.Scalars s t) : Option.Rel p.Values (lookupKey es s) (lookupKey fs t) := by
  induction hes with
  | nil => exact .none
  | @cons e f es fs he _ ih =>
    unfold StepFlow.lookupKey at ih ⊢
    rw [List.find?_cons, List.find?_cons, hm.sameScalars he.1 hs]
    cases f.1.same t with
    | true => exact .some he.2
    | false => exact ih

theorem assignKey (hm : p.Matches h k) {es fs : List (Scalar × Value)} (hes : List.Forall₂ p.Entries es fs)
    (hs : p.Scalars s t) (ha : p.Values a b) : List.Forall₂ p.Entries (assignKey es s a) (assignKey fs t b) := by
  induction hes with
  | nil => exact .cons ⟨hs, ha⟩ .nil
  | @cons e f es fs he hrest ih =>
    simp only [StepFlow.assignKey]
    rw [hm.sameScalars he.1 hs]
    cases f.1.same t with
    | true => exact .cons ⟨he.1, ha⟩ hrest
    | false => exact .cons he ih

/-! ## Equality -/

theorem allSame {same same' : Value → Value → Except Trouble Bool}
    (hs : ∀ a b a' b', p.Values a b → p.Values a' b' → same a a' = same' b b') {xs ys xs' ys' : List Value}
    (hx : List.Forall₂ p.Values xs ys) (hx' : List.Forall₂ p.Values xs' ys') :
    Heap.allSame same xs xs' = Heap.allSame same' ys ys' := by
  induction hx generalizing xs' ys' with
  | nil => cases hx' <;> rfl
  | cons ha _ ih =>
    cases hx' with
    | nil => rfl
    | cons ha' hrest' => simp only [Heap.allSame, hs _ _ _ _ ha ha', ih hrest']

theorem allEntriesSame (hm : p.Matches h k) {same same' : Value → Value → Except Trouble Bool}
    (hs : ∀ a b a' b', p.Values a b → p.Values a' b' → same a a' = same' b b')
    {others others' es fs : List (Scalar × Value)} (ho : List.Forall₂ p.Entries others others')
    (hes : List.Forall₂ p.Entries es fs) :
    Heap.allEntriesSame same others es = Heap.allEntriesSame same' others' fs := by
  induction hes with
  | nil => rfl
  | @cons e f es fs he _ ih =>
    obtain ⟨key, v⟩ := e
    obtain ⟨key', w⟩ := f
    have hl := hm.lookupKey ho he.1
    simp only [Heap.allEntriesSame]
    cases hx : StepFlow.lookupKey others key with
    | none =>
      rw [hx] at hl
      cases hy : StepFlow.lookupKey others' key' with
      | none => rfl
      | some _ => rw [hy] at hl; cases hl
    | some x =>
      rw [hx] at hl
      cases hy : StepFlow.lookupKey others' key' with
      | none => rw [hy] at hl; cases hl
      | some y =>
        rw [hy] at hl
        cases hl with
        | some hxy => simp only [hs _ _ _ _ hxy he.2, ih]

theorem equalWithin (hm : p.Matches h k) (depth : Nat) (ha : p.Values a b) (ha' : p.Values a' b') :
    h.equalWithin depth a a' = k.equalWithin depth b b' := by
  induction depth generalizing a b a' b' with
  | zero =>
    cases ha with
    | scalar hs =>
      cases ha' with
      | scalar hs' => simp only [Heap.equalWithin, hs.equal hs']
      | ref _ => rfl
    | ref _ => cases ha' <;> rfl
  | succ depth ih =>
    cases ha with
    | scalar hs =>
      cases ha' with
      | scalar hs' => simp only [Heap.equalWithin, hs.equal hs']
      | ref _ => rfl
    | ref hr =>
      cases ha' with
      | scalar _ => rfl
      | ref hr' =>
        have hsame : ∀ x y x' y', p.Values x y → p.Values x' y' →
            (if x.identical x' then pure true else h.equalWithin depth x x' : Except Trouble Bool) =
              if y.identical y' then pure true else k.equalWithin depth y y' := by
          intro x y x' y' hx hx'
          rw [hm.identical hx hx', ih hx hx']
        rcases hm.cells hr with ⟨xs, ys, hx, hy, hxs⟩ | ⟨es, fs, hx, hy, hes⟩
        · rcases hm.cells hr' with ⟨xs', ys', hx', hy', hxs'⟩ | ⟨es', fs', hx', hy', -⟩
          · simp only [Heap.equalWithin, hx, hy, hx', hy', hxs.length_eq, hxs'.length_eq, allSame hsame hxs hxs']
          · simp only [Heap.equalWithin, hx, hy, hx', hy']
        · rcases hm.cells hr' with ⟨xs', ys', hx', hy', -⟩ | ⟨es', fs', hx', hy', hes'⟩
          · simp only [Heap.equalWithin, hx, hy, hx', hy']
          · simp only [Heap.equalWithin, hx, hy, hx', hy', hes.length_eq, hes'.length_eq,
              hm.allEntriesSame hsame hes' hes]

theorem equal (hm : p.Matches h k) (ha : p.Values a b) (ha' : p.Values a' b') : h.equal a a' = k.equal b b' :=
  hm.equalWithin depthLimit ha ha'

theorem same (hm : p.Matches h k) (ha : p.Values a b) (ha' : p.Values a' b') : h.same a a' = k.same b b' := by
  unfold Heap.same
  rw [hm.identical ha ha', hm.equal ha ha']

/-! ## Order -/

theorem firstDifferent (hm : p.Matches h k) {xs ys xs' ys' : List Value} (hx : List.Forall₂ p.Values xs ys)
    (hx' : List.Forall₂ p.Values xs' ys') :
    Agree (Option.Rel fun c d => p.Values c.1 d.1 ∧ p.Values c.2 d.2) (h.firstDifferent xs xs')
      (k.firstDifferent ys ys') := by
  induction hx generalizing xs' ys' with
  | nil => cases hx' <;> exact .ok .none
  | cons ha _ ih =>
    cases hx' with
    | nil => exact .ok .none
    | cons ha' hrest' =>
      simp only [Heap.firstDifferent]
      rw [hm.same ha ha']
      refine .after _ fun same => ?_
      cases same with
      | true => exact ih hrest'
      | false => exact .ok (.some ⟨ha, ha'⟩)

theorem orderWithin (hm : p.Matches h k) (op : OrderOp) (depth : Nat) (ha : p.Values a b) (ha' : p.Values a' b') :
    h.orderWithin op depth a a' = k.orderWithin op depth b b' := by
  have hkind : h.kind a = k.kind b := hm.kind ha
  have hkind' : h.kind a' = k.kind b' := hm.kind ha'
  induction depth generalizing a b a' b' with
  | zero =>
    cases ha with
    | scalar hs =>
      cases ha' with
      | scalar hs' => simp only [Heap.orderWithin, hs.order op hs']
      | ref _ => simp only [Heap.orderWithin, hkind, hkind']
    | ref _ =>
      cases ha' with
      | scalar _ => simp only [Heap.orderWithin, hkind, hkind']
      | ref _ => rfl
  | succ depth ih =>
    cases ha with
    | scalar hs =>
      cases ha' with
      | scalar hs' => simp only [Heap.orderWithin, hs.order op hs']
      | ref _ => simp only [Heap.orderWithin, hkind, hkind']
    | ref hr =>
      cases ha' with
      | scalar _ => simp only [Heap.orderWithin, hkind, hkind']
      | ref hr' =>
        rcases hm.cells hr with ⟨xs, ys, hx, hy, hxs⟩ | ⟨es, fs, hx, hy, -⟩
        · rcases hm.cells hr' with ⟨xs', ys', hx', hy', hxs'⟩ | ⟨es', fs', hx', hy', -⟩
          · simp only [Heap.orderWithin, hx, hy, hx', hy']
            refine ((hm.firstDifferent hxs hxs').bind fun c d hcd => ?_).eq
            cases hcd with
            | none => exact .of_eq (by simp only [hxs.length_eq, hxs'.length_eq])
            | some hcd => exact .of_eq (ih hcd.1 hcd.2 (hm.kind hcd.1) (hm.kind hcd.2))
          · simp only [Heap.orderWithin, hx, hy, hx', hy', hkind, hkind']
        · simp only [Heap.orderWithin, hx, hy, hkind, hkind']

theorem order (hm : p.Matches h k) (op : OrderOp) (ha : p.Values a b) (ha' : p.Values a' b') :
    h.order op a a' = k.order op b b' :=
  hm.orderWithin op depthLimit ha ha'

end Matches

end Pairing

/-! ## Texts -/

theorem mapM_agree {ε α β γ : Type} {f : α → Except ε γ} {g : β → Except ε γ} {xs : List α} {ys : List β}
    (h : List.Forall₂ (fun x y => f x = g y) xs ys) : xs.mapM f = ys.mapM g := by
  induction h with
  | nil => rfl
  | cons hxy _ ih => rw [List.mapM_cons, List.mapM_cons, hxy, ih]

namespace Heap

/-- How many containers of the heap are not opened yet. -/
def unopened (h : Heap) (opened : List Ref) : Nat := ((Finset.range h.cells.size).filter (· ∉ opened)).card

theorem unopened_cons {h : Heap} {opened : List Ref} {r : Ref} (hr : r < h.cells.size) (hn : r ∉ opened) :
    h.unopened (r :: opened) < h.unopened opened := by
  have hsub : (Finset.range h.cells.size).filter (· ∉ r :: opened) ⊂
      (Finset.range h.cells.size).filter (· ∉ opened) := by
    refine Finset.ssubset_iff_subset_ne.mpr ⟨fun q hq => ?_, fun heq => ?_⟩
    · simp only [Finset.mem_filter, List.mem_cons, not_or] at hq ⊢
      exact ⟨hq.1, hq.2.2⟩
    · have hin : r ∈ (Finset.range h.cells.size).filter (· ∉ r :: opened) := by
        rw [heq]
        simp [hr, hn]
      simp at hin
  exact Finset.card_lt_card hsub

/-- More room than there are containers to open shows nothing else. -/
theorem displayWithin_room {h : Heap} (room room' : Nat) {opened : List Ref} (v : Value) (hr : h.unopened opened < room)
    (hr' : h.unopened opened < room') : h.displayWithin room opened v = h.displayWithin room' opened v := by
  induction room generalizing room' opened v with
  | zero => omega
  | succ room ih =>
    obtain ⟨room', rfl⟩ : ∃ n, room' = n + 1 := ⟨room' - 1, by omega⟩
    cases v with
    | scalar s => rfl
    | ref r =>
      by_cases hin : opened.contains r = true
      · simp only [displayWithin, if_pos hin]
      have hnotin : r ∉ opened := fun h' => hin (List.contains_iff_mem.mpr h')
      by_cases hlt : r < h.cells.size
      · have hfewer := unopened_cons hlt hnotin
        have hsame : ∀ x, h.displayWithin room (r :: opened) x = h.displayWithin room' (r :: opened) x :=
          fun x => ih room' x (by omega) (by omega)
        simp only [displayWithin, if_neg hin, funext hsame]
      · simp only [displayWithin, cell_outside hlt, if_neg hin]
        rfl

end Heap

namespace Pairing.Matches

variable {p : Pairing} {h k : Heap} {a b : Value}

theorem contains (hm : p.Matches h k) {opened opened' : List Ref} (ho : List.Forall₂ p.refs opened opened') {r s : Ref}
    (hr : p.refs r s) : opened.contains r = opened'.contains s := by
  induction ho with
  | nil => rfl
  | @cons q q' _ _ hq _ ih =>
    have hbeq : (r == q) = (s == q') := by
      rw [Bool.eq_iff_iff, beq_iff_eq, beq_iff_eq]
      exact hm.refs_iff hr hq
    rw [List.contains_cons, List.contains_cons, hbeq, ih]

theorem displayWithin (hm : p.Matches h k) (room : Nat) {opened opened' : List Ref}
    (ho : List.Forall₂ p.refs opened opened') (ha : p.Values a b) :
    h.displayWithin room opened a = k.displayWithin room opened' b := by
  induction room generalizing opened opened' a b with
  | zero =>
    cases ha with
    | scalar hs => exact hs.display
    | ref _ => rfl
  | succ room ih =>
    cases ha with
    | scalar hs => exact hs.display
    | @ref r s hr =>
      have hin := hm.contains ho hr
      have hshown : ∀ x y, p.Values x y →
          h.displayWithin room (r :: opened) x = k.displayWithin room (s :: opened') y :=
        fun x y hxy => ih (.cons hr ho) hxy
      rcases hm.cells hr with ⟨xs, ys, hx, hy, hxs⟩ | ⟨es, fs, hx, hy, hes⟩
      · simp only [Heap.displayWithin, hx, hy, hin]
        rw [mapM_agree (hxs.imp hshown)]
      · simp only [Heap.displayWithin, hx, hy, hin]
        rw [mapM_agree (hes.imp fun e f he => ?_)]
        rw [he.1.display, hshown e.2 f.2 he.2]

/-- Both heaps get the room of the larger one, and of that neither needs more than its own. -/
theorem display (hm : p.Matches h k) (ha : p.Values a b) : h.display a = k.display b := by
  have hroom : ∀ l : Heap, l.unopened [] = l.cells.size := by
    intro l
    simp [Heap.unopened]
  let room := max h.cells.size k.cells.size + 1
  calc h.display a
      = h.displayWithin room [] a := Heap.displayWithin_room _ _ a (by rw [hroom]; omega) (by rw [hroom]; omega)
    _ = k.displayWithin room [] b := hm.displayWithin room .nil ha
    _ = k.display b := Heap.displayWithin_room _ _ b (by rw [hroom]; omega) (by rw [hroom]; omega)

theorem text (hm : p.Matches h k) (ha : p.Values a b) : h.text a = k.text b := by
  have hd := hm.display ha
  cases ha with
  | scalar hs =>
    cases hs with
    | str s => rfl
    | _ => exact hd
  | ref _ => exact hd

theorem plainText (hm : p.Matches h k) (ha : p.Values a b) : h.plainText a = k.plainText b := by
  have ht := hm.text ha
  cases ha with
  | scalar hs =>
    cases hs with
    | null | bool => rfl
    | _ => exact ht
  | ref _ => exact ht

end Pairing.Matches

/-! ## Templates -/

namespace Template

variable {p : Pairing} {h k : Heap} {a b : Value} {arg arg' : Arg}

/-- The arguments are alike, and taken or not. -/
structure Args (p : Pairing) (arg arg' : Arg) : Prop where
  value : p.Values arg.value arg'.value
  taken : arg.taken = arg'.taken

theorem take_agree (ha : Args p arg arg') :
    Agree (fun x y => p.Values x.1 y.1 ∧ Args p x.2 y.2) arg.take arg'.take := by
  unfold Arg.take
  rw [ha.taken]
  cases arg'.taken with
  | true => exact .error _
  | false => exact .ok ⟨ha.value, ha.value, rfl⟩

theorem wholeOf_alike (letter : Char) (ha : p.Values a b) : wholeOf letter a = wholeOf letter b := by
  cases ha with
  | scalar hs => simp only [wholeOf, hs.toInt?, hs.truncated]
  | ref _ => rfl

theorem realOf_alike (ha : p.Values a b) : realOf a = realOf b := by
  cases ha with
  | scalar hs => exact hs.toFloat
  | ref _ => rfl

theorem charOf_alike (ha : p.Values a b) : charOf a = charOf b := by
  cases ha with
  | scalar hs => cases hs <;> rfl
  | ref _ => rfl

theorem starOf_alike (bound : Nat) (beyond : OverflowTrouble) (ha : p.Values a b) :
    starOf bound beyond a = starOf bound beyond b := by
  cases ha with
  | scalar hs => cases hs <;> rfl
  | ref _ => rfl

theorem isMapping_alike (ha : p.Values a b) : isMapping a = isMapping b := by cases ha <;> rfl

theorem converted_alike (hm : p.Matches h k) (spec : Spec) (index : Nat) (ha : p.Values a b) :
    converted h spec index a = converted k spec index b := by
  simp only [converted, wholeOf_alike spec.letter ha, realOf_alike ha, charOf_alike ha, hm.text ha, hm.display ha]

theorem lookupText_alike {es fs : List (Scalar × Value)} (hes : List.Forall₂ p.Entries es fs) (key : String) :
    Option.Rel p.Values (keyed.lookupText es key) (keyed.lookupText fs key) := by
  induction hes with
  | nil => exact .none
  | @cons e f es fs he _ ih =>
    obtain ⟨s, v⟩ := e
    obtain ⟨t, w⟩ := f
    obtain ⟨hs, hv⟩ := he
    unfold keyed.lookupText at ih ⊢
    rw [List.find?_cons, List.find?_cons]
    cases hs with
    | str s =>
      cases hk : s == key with
      | true => simp only [hk]; exact .some hv
      | false => simp only [hk]; exact ih
    | _ => exact ih

theorem keyed_agree (hm : p.Matches h k) (ha : p.Values a b) (key : String) :
    Agree p.Values (keyed h a key) (keyed k b key) := by
  cases ha with
  | scalar _ => exact .error _
  | ref hr =>
    rcases hm.cells hr with ⟨xs, ys, hx, hy, -⟩ | ⟨es, fs, hx, hy, hes⟩
    · simp only [keyed, hx, hy]
      exact .error _
    · simp only [keyed, hx, hy]
      have hl := lookupText_alike hes key
      generalize keyed.lookupText es key = v at hl ⊢
      generalize keyed.lookupText fs key = w at hl ⊢
      cases hl with
      | none => exact .error _
      | some hv => exact .ok hv

/-- The results of reading a part of a template: what was read, the argument, the rest. -/
def Reads {α : Type} (p : Pairing) (x y : α × Arg × List Char) : Prop :=
  x.1 = y.1 ∧ Args p x.2.1 y.2.1 ∧ x.2.2 = y.2.2

theorem measure_agree (bound : Nat) (tooBig : ValueTrouble) (beyond : OverflowTrouble) (ha : Args p arg arg')
    (cs : List Char) : Agree (Reads p) (measure bound tooBig beyond arg cs) (measure bound tooBig beyond arg' cs) := by
  unfold measure
  split
  · refine (take_agree ha).bind ?_
    rintro ⟨v, arg⟩ ⟨w, arg'⟩ ⟨hv, ha⟩
    dsimp only
    rw [starOf_alike bound beyond hv]
    exact .after _ fun n => .ok ⟨rfl, ha, rfl⟩
  · dsimp only
    split
    · exact .ok ⟨rfl, ha, rfl⟩
    · split
      · exact .error _
      · exact .ok ⟨rfl, ha, rfl⟩

theorem readSpec_agree (ha : Args p arg arg') (cs : List Char) :
    Agree (Reads p) (readSpec arg cs) (readSpec arg' cs) := by
  unfold readSpec
  dsimp only
  refine (measure_agree _ _ _ ha _).bind ?_
  rintro ⟨width, arg, cs⟩ ⟨width', arg', cs'⟩ ⟨rfl, ha, rfl⟩
  dsimp only
  split
  · refine (measure_agree _ _ _ ha _).bind ?_
    rintro ⟨n, arg, cs⟩ ⟨_, arg', _⟩ ⟨rfl, ha, rfl⟩
    simp only [pure_bind]
    split
    · exact .error _
    · exact .ok ⟨rfl, ha, rfl⟩
  · simp only [pure_bind]
    split
    · exact .error _
    · exact .ok ⟨rfl, ha, rfl⟩

theorem fillOne_agree (hm : p.Matches h k) (ha : p.Values a b) (hg : Args p arg arg') (size : Nat) (cs : List Char) :
    Agree (Reads p) (fillOne h a size arg cs) (fillOne k b size arg' cs) := by
  unfold fillOne
  extract_lets rest rest'
  have hmapping : isMapping a = isMapping b := isMapping_alike ha
  have hrest : ∀ x y : Arg × List Char, Args p x.1 y.1 ∧ x.2 = y.2 → Agree (Reads p) (rest x) (rest' y) := by
    rintro ⟨arg, cs⟩ ⟨arg', _⟩ ⟨hg, rfl⟩
    refine (readSpec_agree hg cs).bind ?_
    rintro ⟨spec, arg, cs⟩ ⟨_, arg', _⟩ ⟨rfl, hg, rfl⟩
    refine (take_agree hg).bind ?_
    rintro ⟨v, arg⟩ ⟨w, arg'⟩ ⟨hv, hg⟩
    dsimp only
    rw [converted_alike hm spec _ hv]
    refine .after _ fun text => ?_
    dsimp only at hg ⊢
    rw [hmapping, hg.taken]
    split
    · exact .error _
    · exact .ok ⟨rfl, hg, rfl⟩
  split
  · rw [hmapping]
    split
    · exact .error _
    · split
      · exact .error _
      · refine (keyed_agree hm ha _).bind fun v w hv => ?_
        exact hrest (⟨v, false⟩, _) (⟨w, false⟩, _) ⟨⟨hv, rfl⟩, rfl⟩
  · exact hrest (arg, cs) (arg', cs) ⟨hg, rfl⟩

theorem fillFrom_agree (hm : p.Matches h k) (ha : p.Values a b) (size room : Nat) (hg : Args p arg arg')
    (cs : List Char) : fillFrom h a size room arg cs = fillFrom k b size room arg' cs := by
  have hmapping : isMapping a = isMapping b := isMapping_alike ha
  fun_induction fillFrom h a size room arg cs generalizing arg' with
  | case1 _ arg hleft | case2 _ arg hleft =>
    rw [hmapping, hg.taken] at hleft
    simp only [fillFrom, hleft]
    rfl
  | case3 arg cs hcs =>
    cases cs with
    | nil => exact absurd rfl hcs
    | cons => rfl
  | case4 room arg cs ih =>
    rw [fillFrom, ih hg]
  | case5 room arg cs hcs ih =>
    rw [fillFrom]
    · refine ((fillOne_agree hm ha hg size cs).bind ?_).eq
      rintro ⟨shown, arg, cs⟩ ⟨_, arg', _⟩ ⟨rfl, hg, rfl⟩
      dsimp only
      exact .of_eq (by rw [ih arg cs hg])
    · exact hcs
  | case6 room arg c cs hpercent hother ih =>
    rw [fillFrom]
    · rw [ih hg]
    · exact hpercent
    · exact hother

theorem fill_alike (hm : p.Matches h k) (template : String) (ha : p.Values a b) :
    fill h template a = fill k template b := by
  have hargs : Args p ⟨a, false⟩ ⟨b, false⟩ := ⟨ha, rfl⟩
  unfold fill
  dsimp only
  rw [fillFrom_agree hm ha _ _ hargs]

end Template

end StepFlow
