/-
  StepFlow.Proofs.Value.Failing — what the operations on values can fail with, by its class.

  A computation fails as `P` says if whatever it fails with is such (`Fails`); for troubles, `P`
  is mostly that the class is one of a few (`Trouble.In`).

  Proved, for all values and heaps:
  - The text of a value fails for the length of a number only (`display_fails`, `plainText_fails`).
  - Comparing fails for the depth (`equal_fails`), or for the types if it asks for an order
    (`order_fails`).
  - A template fails for types, values, overflows and keys (`Template.fill_fails`).
-/

import StepFlow.Value.Equal
import StepFlow.Value.Template

namespace StepFlow

/-- Whatever the computation fails with is such. -/
def Fails {ε α : Type} (P : ε → Prop) (x : Except ε α) : Prop := ∀ e, x = .error e → P e

namespace Fails

variable {ε α β : Type} {P Q : ε → Prop}

theorem ok (x : α) : Fails P (.ok x) := fun _ h => by cases h

theorem error {e : ε} (h : P e) : Fails P (.error e : Except ε α) := by
  rintro _ ⟨⟩
  exact h

theorem mono {x : Except ε α} (hx : Fails P x) (h : ∀ e, P e → Q e) : Fails Q x := fun e he => h e (hx e he)

theorem bind {x : Except ε α} {f : α → Except ε β} (hx : Fails P x) (hf : ∀ a, Fails P (f a)) :
    Fails P (x >>= f) := by
  cases x with
  | error e => exact .error (hx e rfl)
  | ok a => exact hf a

theorem map {x : Except ε α} (hx : Fails P x) (f : α → β) : Fails P (x.map f) := by
  cases x with
  | error e => exact .error (hx e rfl)
  | ok a => exact .ok (f a)

theorem ite {c : Prop} [Decidable c] {x y : Except ε α} (hx : Fails P x) (hy : Fails P y) :
    Fails P (if c then x else y) := by
  split
  · exact hx
  · exact hy

/-- What is done unless something is wrong. -/
theorem guard {c : Prop} [Decidable c] {e : ε} {f : Unit → Except ε α} (he : P e) (hf : Fails P (f ())) :
    Fails P (if c then throw e >>= f else f ()) :=
  ite (error he) hf

theorem mapM {f : α → Except ε β} (hf : ∀ a, Fails P (f a)) (xs : List α) : Fails P (xs.mapM f) := by
  induction xs with
  | nil => exact .ok []
  | cons x xs ih =>
    rw [List.mapM_cons]
    exact (hf x).bind fun y => ih.bind fun ys => .ok (y :: ys)

end Fails

/-- The class of the trouble is one of these. -/
def Trouble.In (cs : List String) (t : Trouble) : Prop := t.className ∈ cs

theorem Fails.widen {α : Type} {cs ds : List String} {x : Except Trouble α} (hx : Fails (Trouble.In cs) x)
    (h : cs ⊆ ds) : Fails (Trouble.In ds) x :=
  hx.mono fun _ he => h he

namespace Trouble

variable {cs : List String}

@[simp] theorem type_in (t : TypeTrouble) : (type t).In cs ↔ "TypeError" ∈ cs := Iff.rfl

@[simp] theorem value_in (v : ValueTrouble) : (value v).In cs ↔ "ValueError" ∈ cs := Iff.rfl

@[simp] theorem overflow_in (o : OverflowTrouble) : (overflow o).In cs ↔ "OverflowError" ∈ cs := Iff.rfl

@[simp] theorem key_in (k : String) : (key k).In cs ↔ "KeyError" ∈ cs := Iff.rfl

@[simp] theorem zeroDivision_in : zeroDivision.In cs ↔ "ZeroDivisionError" ∈ cs := Iff.rfl

@[simp] theorem tooDeep_in : tooDeep.In cs ↔ "RecursionError" ∈ cs := Iff.rfl

end Trouble

open Trouble (In)

/-! ## Numbers -/

theorem intText_fails (n : Int) : Fails (In ["ValueError"]) (intText n) := by
  unfold intText
  split
  · exact .ok _
  · exact .error (by simp)

namespace Scalar

theorem toFloat_fails (s : Scalar) : Fails (In ["TypeError", "OverflowError"]) s.toFloat := by
  unfold toFloat
  split
  · exact .ok _
  · exact .ok _
  · split
    · exact .error (by simp)
    · split
      · exact .ok _
      · exact .error (by simp)

theorem truncated_fails (s : Scalar) : Fails (In ["TypeError", "ValueError", "OverflowError"]) s.truncated := by
  unfold truncated
  split
  · split
    · exact .ok _
    · exact .error (by simp)
  · exact .error (by simp)
  · split
    · exact .ok _
    · exact .error (by simp)

theorem order_fails (a : Scalar) (op : OrderOp) (b : Scalar) : Fails (In ["TypeError"]) (a.order op b) := by
  unfold order
  split
  · exact .ok _
  · exact .ite (.ok _) (.error (by simp))

theorem display_fails (s : Scalar) : Fails (In ["ValueError"]) s.display := by
  cases s with
  | int n => exact intText_fails n
  | _ => exact .ok _

end Scalar

/-! ## Texts and comparisons -/

namespace Heap

variable (h : Heap)

theorem displayWithin_fails (room : Nat) (opened : List Ref) (v : Value) :
    Fails (In ["ValueError"]) (h.displayWithin room opened v) := by
  induction room generalizing opened v with
  | zero =>
    cases v with
    | scalar s => exact s.display_fails
    | ref r => exact .ok _
  | succ room ih =>
    cases v with
    | scalar s => exact s.display_fails
    | ref r =>
      unfold displayWithin
      split
      · exact .ite (.ok _) ((Fails.mapM (fun x => ih _ x) _).bind fun _ => .ok _)
      · refine .ite (.ok _) ((Fails.mapM (fun e => ?_) _).bind fun _ => .ok _)
        exact e.1.display_fails.bind fun _ => (ih _ e.2).bind fun _ => .ok _

theorem display_fails (v : Value) : Fails (In ["ValueError"]) (h.display v) := h.displayWithin_fails _ _ v

theorem text_fails (v : Value) : Fails (In ["ValueError"]) (h.text v) := by
  unfold text
  split
  · exact .ok _
  · exact h.display_fails _

theorem plainText_fails (v : Value) : Fails (In ["ValueError"]) (h.plainText v) := by
  unfold plainText
  split
  · exact .ok _
  · exact .ok _
  · exact h.text_fails _

theorem allSame_fails {P : Trouble → Prop} {same : Value → Value → Except Trouble Bool}
    (hs : ∀ a b, Fails P (same a b)) (xs ys : List Value) : Fails P (allSame same xs ys) := by
  induction xs generalizing ys with
  | nil => exact .ok _
  | cons x xs ih =>
    cases ys with
    | nil => exact .ok _
    | cons y ys => exact (hs x y).bind fun _ => .ite (ih ys) (.ok _)

theorem allEntriesSame_fails {P : Trouble → Prop} {same : Value → Value → Except Trouble Bool}
    (hs : ∀ a b, Fails P (same a b)) (others es : List (Scalar × Value)) :
    Fails P (allEntriesSame same others es) := by
  induction es with
  | nil => exact .ok _
  | cons e es ih =>
    unfold allEntriesSame
    split
    · exact .ok _
    · exact (hs _ e.2).bind fun _ => .ite ih (.ok _)

theorem equalWithin_fails (depth : Nat) (a b : Value) : Fails (In ["RecursionError"]) (h.equalWithin depth a b) := by
  induction depth generalizing a b with
  | zero =>
    cases a with
    | scalar s => cases b <;> exact .ok _
    | ref r =>
      cases b with
      | scalar t => exact .ok _
      | ref q => exact .error (by simp)
  | succ depth ih =>
    have hs : ∀ a b : Value, Fails (In ["RecursionError"])
        (if a.identical b then pure true else h.equalWithin depth a b) := fun a b => .ite (.ok _) (ih a b)
    cases a with
    | scalar s => cases b <;> exact .ok _
    | ref r =>
      cases b with
      | scalar t => exact .ok _
      | ref q =>
        unfold equalWithin
        dsimp only
        split
        · exact .ite (allSame_fails hs _ _) (.ok _)
        · exact .ite (allEntriesSame_fails hs _ _) (.ok _)
        · exact .ok _

theorem equal_fails (a b : Value) : Fails (In ["RecursionError"]) (h.equal a b) := h.equalWithin_fails _ a b

theorem same_fails (a b : Value) : Fails (In ["RecursionError"]) (h.same a b) := .ite (.ok _) (h.equal_fails a b)

theorem firstDifferent_fails (xs ys : List Value) : Fails (In ["RecursionError"]) (h.firstDifferent xs ys) := by
  induction xs generalizing ys with
  | nil => exact .ok _
  | cons x xs ih =>
    cases ys with
    | nil => exact .ok _
    | cons y ys => exact (h.same_fails x y).bind fun _ => .ite (ih ys) (.ok _)

theorem orderWithin_fails (op : OrderOp) (depth : Nat) (a b : Value) :
    Fails (In ["TypeError", "RecursionError"]) (h.orderWithin op depth a b) := by
  have hscalars : ∀ s t : Scalar, Fails (In ["TypeError", "RecursionError"]) (s.order op t) := fun s t =>
    (s.order_fails op t).widen (by simp)
  induction depth generalizing a b with
  | zero =>
    cases a with
    | scalar s =>
      cases b with
      | scalar t => exact hscalars s t
      | ref q => exact .error (by simp)
    | ref r => cases b <;> exact .error (by simp)
  | succ depth ih =>
    cases a with
    | scalar s =>
      cases b with
      | scalar t => exact hscalars s t
      | ref q => exact .error (by simp)
    | ref r =>
      cases b with
      | scalar t => exact .error (by simp)
      | ref q =>
        unfold orderWithin
        split
        · refine ((h.firstDifferent_fails _ _).widen (by simp)).bind fun d => ?_
          cases d with
          | some d => exact ih d.1 d.2
          | none => exact .ok _
        · exact .error (by simp)

theorem order_fails (op : OrderOp) (a b : Value) :
    Fails (In ["TypeError", "RecursionError"]) (h.order op a b) := h.orderWithin_fails op _ a b

end Heap

/-! ## Templates -/

namespace Template

/-- What a template can fail with. -/
def classes : List String := ["TypeError", "ValueError", "OverflowError", "KeyError"]

@[simp] theorem classes_type : "TypeError" ∈ classes := by simp [classes]

@[simp] theorem classes_value : "ValueError" ∈ classes := by simp [classes]

@[simp] theorem classes_overflow : "OverflowError" ∈ classes := by simp [classes]

@[simp] theorem classes_key : "KeyError" ∈ classes := by simp [classes]

theorem take_fails (arg : Arg) : Fails (In classes) arg.take := .ite (.error (by simp)) (.ok _)

theorem wholeText_fails (letter : Char) (alternate : Bool) (precision : Option Nat) (n : Int) :
    Fails (In classes) (wholeText letter alternate precision n) := by
  unfold wholeText
  dsimp only
  refine .guard (by simp) (.ite (.ok _) (.ite (.ok _) ?_))
  exact ((intText_fails _).widen (by simp [classes])).bind fun _ => .ok _

theorem wholeOf_fails (letter : Char) (v : Value) : Fails (In classes) (wholeOf letter v) := by
  cases v with
  | ref r => exact .error (by simp)
  | scalar s => exact .ite (.error (by simp)) (s.truncated_fails.widen (by simp [classes]))

theorem realOf_fails (v : Value) : Fails (In classes) (realOf v) := by
  cases v with
  | ref r => exact .error (by simp)
  | scalar s => exact s.toFloat_fails.widen (by simp [classes])

theorem charOf_fails (v : Value) : Fails (In classes) (charOf v) := by
  unfold charOf
  split
  · split
    · exact .ok _
    · exact .error (by simp)
  · exact .ite (.ok _) (.error (by simp))
  · exact .ok _
  · exact .error (by simp)

theorem starOf_fails (bound : Nat) (beyond : OverflowTrouble) (v : Value) :
    Fails (In classes) (starOf bound beyond v) := by
  unfold starOf
  split
  · exact .ite (.ok _) (.error (by simp))
  · exact .ok _
  · exact .error (by simp)

theorem converted_fails (h : Heap) (spec : Spec) (index : Nat) (v : Value) :
    Fails (In classes) (converted h spec index v) := by
  have hdisplay : Fails (In classes) (h.display v) := (h.display_fails v).widen (by simp [classes])
  have htext : Fails (In classes) (h.text v) := (h.text_fails v).widen (by simp [classes])
  unfold converted
  refine .ite ((wholeOf_fails _ v).bind fun n => wholeText_fails _ _ _ n) ?_
  refine .ite ((realOf_fails v).bind fun x => .ok _) ?_
  refine .ite (htext.bind fun t => .ok _) ?_
  refine .ite (hdisplay.bind fun t => .ok _) ?_
  refine .ite (hdisplay.bind fun t => .ok _) ?_
  exact .ite ((charOf_fails v).bind fun c => .ok _) (.error (by simp))

theorem keyed_fails (h : Heap) (whole : Value) (key : String) : Fails (In classes) (keyed h whole key) := by
  unfold keyed
  split
  · split
    · split
      · exact .ok _
      · exact .error (by simp)
    · exact .error (by simp)
  · exact .error (by simp)

theorem measure_fails (bound : Nat) (tooBig : ValueTrouble) (beyond : OverflowTrouble) (arg : Arg) (cs : List Char) :
    Fails (In classes) (measure bound tooBig beyond arg cs) := by
  unfold measure
  split
  · exact (take_fails arg).bind fun _ => (starOf_fails _ _ _).bind fun _ => .ok _
  · exact .ite (.ok _) (.ite (.error (by simp)) (.ok _))

theorem readSpec_fails (arg : Arg) (cs : List Char) : Fails (In classes) (readSpec arg cs) := by
  unfold readSpec
  refine (measure_fails _ _ _ _ _).bind ?_
  rintro ⟨width, arg, cs⟩
  dsimp only
  split
  · refine (measure_fails _ _ _ _ _).bind ?_
    rintro ⟨n, arg, rest⟩
    simp only [pure_bind]
    split
    · exact .error (by simp)
    · exact .ok _
  · simp only [pure_bind]
    split
    · exact .error (by simp)
    · exact .ok _

theorem fillOne_fails (h : Heap) (whole : Value) (size : Nat) (arg : Arg) (cs : List Char) :
    Fails (In classes) (fillOne h whole size arg cs) := by
  unfold fillOne
  extract_lets rest
  have hrest : ∀ x, Fails (In classes) (rest x) := by
    rintro ⟨arg, cs⟩
    exact (readSpec_fails arg cs).bind fun _ => (take_fails _).bind fun _ =>
      (converted_fails h _ _ _).bind fun _ => .guard (by simp) (.ok _)
  split
  · refine .ite (.error (by simp)) ?_
    split
    · exact .error (by simp)
    · exact (keyed_fails h _ _).bind fun _ => .bind (.ok _) hrest
  · exact .bind (.ok _) hrest

theorem fillFrom_fails (h : Heap) (whole : Value) (size room : Nat) (arg : Arg) (cs : List Char) :
    Fails (In classes) (fillFrom h whole size room arg cs) := by
  induction room generalizing arg cs with
  | zero =>
    cases cs with
    | nil => exact .ite (.error (by simp)) (.ok _)
    | cons => exact .ok _
  | succ room ih =>
    unfold fillFrom
    split
    · exact .ite (.error (by simp)) (.ok _)
    · exact .ok _
    · rename_i heq
      cases heq
      exact (ih _ _).bind fun _ => .ok _
    · rename_i heq
      cases heq
      exact (fillOne_fails h whole size _ _).bind fun r => (ih r.2.1 r.2.2).bind fun _ => .ok _
    · rename_i heq
      cases heq
      exact (ih _ _).bind fun _ => .ok _

theorem fill_fails (h : Heap) (template : String) (v : Value) : Fails (In classes) (fill h template v) :=
  (fillFrom_fails h v _ _ _ _).bind fun _ => .ok _

end Template

end StepFlow
