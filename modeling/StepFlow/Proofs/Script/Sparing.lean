/-
  StepFlow.Proofs.Script.Sparing — evaluation changes no container that is there.

  A heap keeps another one (`Heap.Keeps`) if all its containers are as they were; it may have
  more of them, and may have given out more NaNs. A computation spares the heap
  (`Act.Spares`) if it leaves one that keeps it, whether it gives a value or fails.

  Proved, for every expression, variables and heap, which may be shared and cyclic:
  (1) `operate_spares`, `Builtin.apply_spares`: no operator and no function changes a container.
  (2) `eval_spares`: neither does the evaluation of an expression, however it ends.
-/

import StepFlow.Script.Eval

namespace StepFlow

/-! ## Heaps that keep their containers -/

/-- All containers of the first heap are the same in the second. -/
def Heap.Keeps (h k : Heap) : Prop := ∀ r < h.cells.size, k.cells[r]? = h.cells[r]?

namespace Heap.Keeps

theorem refl (h : Heap) : h.Keeps h := fun _ _ => rfl

theorem size_le {h k : Heap} (hk : h.Keeps k) : h.cells.size ≤ k.cells.size := by
  by_cases hs : h.cells.size = 0
  · omega
  · have hlast := hk (h.cells.size - 1) (by omega)
    rw [Array.getElem?_eq_getElem (by omega : h.cells.size - 1 < h.cells.size)] at hlast
    have := (Array.getElem?_eq_some_iff.mp hlast).1
    omega

theorem trans {h k l : Heap} (hk : h.Keeps k) (hl : k.Keeps l) : h.Keeps l := by
  intro r hr
  have := hk.size_le
  rw [hl r (by omega), hk r hr]

theorem alloc (h : Heap) (c : Cell) : h.Keeps (h.alloc c).2 := by
  intro r hr
  simp only [Heap.alloc, Array.getElem?_push]
  rw [if_neg (by omega)]

theorem float (h : Heap) (x : Float) : h.Keeps (h.float x).2 := by
  intro r _
  unfold Heap.float
  split <;> rfl

end Heap.Keeps

/-! ## Computations that spare the heap -/

namespace Act

variable {ε δ α β : Type}

/-- The computation leaves all containers as they are, whether it succeeds or fails. -/
def Spares (a : Act ε α) : Prop := ∀ h : Heap, h.Keeps (a.run h).2

theorem spares_pure (x : α) : Spares (pure x : Act ε α) := fun h => .refl h

theorem spares_throw (e : ε) : Spares (throw e : Act ε α) := fun h => .refl h

theorem spares_get : Spares (get : Act ε Heap) := fun h => .refl h

theorem spares_ofExcept (e : Except ε α) : Spares (ofExcept e) := fun h => .refl h

theorem spares_look (f : Heap → Except ε α) : Spares (look f) := fun h => .refl h

theorem spares_alloc (c : Cell) : Spares (alloc c : Act ε Value) := fun h => .alloc h c

theorem spares_float (x : Float) : Spares (float x : Act ε Value) := fun h => .float h x

theorem Spares.bind {a : Act ε α} {f : α → Act ε β} (ha : Spares a) (hf : ∀ x, Spares (f x)) :
    Spares (a >>= f) := by
  intro h
  have ha := ha h
  show h.Keeps (ExceptT.bindCont f (a.run h).1 (a.run h).2).2
  cases hr : a.run h with
  | mk r k =>
    rw [hr] at ha
    cases r with
    | error e => exact ha
    | ok x => exact ha.trans (hf x k)

/-- What is done unless something is wrong. -/
theorem spares_unless {c : Prop} [Decidable c] {e : ε} {f : Unit → Act ε α} (hf : Spares (f ())) :
    Spares (if c then throw e >>= f else f ()) := by
  split
  · exact (spares_throw e).bind fun _ => hf
  · exact hf

theorem Spares.adapt {a : Act ε α} (ha : Spares a) (f : ε → δ) : Spares (ExceptT.adapt f a : Act δ α) := by
  intro h
  have ha := ha h
  show h.Keeps (a.run h).2
  exact ha

end Act

open Act

/-! ## Operators -/

namespace Operator

theorem arithmetic_spares {ints : Int → Int → Act Trouble Value} {floats : Float → Float → Act Trouble Value}
    (hi : ∀ n m, Spares (ints n m)) (hf : ∀ x y, Spares (floats x y)) (a b : Value) :
    Spares (arithmetic ints floats a b) := by
  unfold arithmetic
  split
  · split
    · exact hi _ _
    · split
      · exact (spares_ofExcept _).bind fun x => (spares_ofExcept _).bind fun y => hf x y
      · exact spares_throw _
  · exact spares_throw _

theorem add_spares (a b : Value) : Spares (add a b) := by
  unfold add
  split
  · exact spares_pure _
  · refine spares_get.bind fun h => ?_
    split
    · exact spares_alloc _
    · exact spares_throw _
  · exact arithmetic_spares (fun _ _ => spares_pure _) (fun _ _ => spares_float _) _ _

theorem sub_spares (a b : Value) : Spares (sub a b) :=
  arithmetic_spares (fun _ _ => spares_pure _) (fun _ _ => spares_float _) a b

theorem repeated_spares (v : Value) (n : Int) : Spares (repeated v n) := by
  unfold repeated
  split
  · refine (spares_ofExcept _).bind fun k => ?_
    exact spares_unless (spares_pure _)
  · refine spares_get.bind fun h => ?_
    split
    · exact (spares_ofExcept _).bind fun k => spares_alloc _
    · exact spares_throw _
  · exact spares_throw _

theorem mul_spares (a b : Value) : Spares (mul a b) := by
  unfold mul
  dsimp only
  split
  · exact repeated_spares _ _
  · exact repeated_spares _ _
  · exact arithmetic_spares (fun _ _ => spares_pure _) (fun _ _ => spares_float _) _ _

theorem div_spares (a b : Value) : Spares (div a b) := by
  refine arithmetic_spares (fun n m => ?_) (fun x y => ?_) a b
  · split
    · exact spares_throw _
    · split
      · exact spares_float _
      · exact spares_throw _
  · split
    · exact spares_throw _
    · exact spares_float _

theorem mod_spares (a b : Value) : Spares (mod a b) := by
  unfold mod
  split
  · exact (spares_look _).bind fun t => spares_pure _
  · refine arithmetic_spares (fun n m => ?_) (fun x y => ?_) _ _
    · split
      · exact spares_throw _
      · exact spares_pure _
    · split
      · exact spares_throw _
      · exact spares_float _

end Operator

theorem BinaryOp.apply_spares (op : BinaryOp) (a b : Value) : Spares (op.apply a b) := by
  unfold BinaryOp.apply
  cases op with
  | add => exact Operator.add_spares a b
  | sub => exact Operator.sub_spares a b
  | mul => exact Operator.mul_spares a b
  | div => exact Operator.div_spares a b
  | mod => exact Operator.mod_spares a b
  | eq | ne | order => exact (spares_look _).bind fun x => spares_pure _

/-! ## Functions -/

namespace Builtin

theorem toFloat_spares (v : Value) : Spares (toFloat v) := by
  unfold toFloat
  split
  · split
    · exact spares_float _
    · exact spares_throw _
  · exact spares_pure _
  · exact spares_pure _
  · split
    · exact (spares_ofExcept _).bind fun x => spares_float x
    · exact spares_throw _
  · exact spares_get.bind fun h => spares_throw _

theorem absolute_spares (v : Value) : Spares (absolute v) := by
  unfold absolute
  split
  · exact spares_float _
  · exact spares_float _
  · split
    · exact spares_pure _
    · exact spares_throw _
  · exact spares_get.bind fun h => spares_throw _

theorem rounded_spares (v places : Value) : Spares (rounded v places) := by
  unfold rounded
  refine spares_get.bind fun h => ?_
  split
  · exact spares_throw _
  · split
    · exact spares_unless ((spares_ofExcept _).bind fun n => spares_pure _)
    · refine spares_unless ((spares_ofExcept _).bind fun p => ?_)
      split
      · exact (spares_ofExcept _).bind fun x => spares_float x
      · exact spares_float _
      · exact spares_pure _

theorem cased_spares (change : String → String) (args : List Value) : Spares (cased change args) :=
  (spares_ofExcept _).bind fun _ => (spares_look _).bind fun _ => spares_pure _

theorem apply_spares (f : Builtin) (args : List Value) : Spares (f.apply args) := by
  unfold Builtin.apply
  cases f with
  | len | str => exact (spares_ofExcept _).bind fun v => (spares_look _).bind fun x => spares_pure _
  | int =>
    dsimp only
    split
    · exact spares_pure _
    · exact (spares_look _).bind fun n => spares_pure _
    · exact (spares_look _).bind fun n => spares_pure _
    · exact spares_throw _
  | float =>
    dsimp only
    split
    · exact spares_float _
    · exact toFloat_spares _
    · exact spares_throw _
  | bool =>
    dsimp only
    split
    · exact spares_pure _
    · exact spares_get.bind fun h => spares_pure _
    · exact spares_throw _
  | abs => exact (spares_ofExcept _).bind fun v => absolute_spares v
  | min | max => exact spares_look _
  | round =>
    dsimp only
    split
    · exact spares_throw _
    · exact rounded_spares _ _
    · exact rounded_spares _ _
    · exact spares_throw _
  | lower | upper => exact cased_spares _ args
  | contains =>
    dsimp only
    split
    · exact spares_throw _
    · exact spares_throw _
    · exact (spares_look _).bind fun x => spares_pure _
    · exact spares_throw _

end Builtin

/-! ## Expressions -/

namespace Script

variable {α : Type}

theorem lift_spares {a : Act Trouble α} (ha : Spares a) (name : Trouble → Fault) : Spares (lift name a) :=
  ha.adapt name

theorem operate_spares (op : BinaryOp) (a b : Value) : Spares (operate op a b) :=
  spares_get.bind fun _ => lift_spares (op.apply_spares a b) _

theorem sign_spares (op : UnaryOp) (v : Value) : Spares (sign op v) := by
  have hrefuse : Spares (do throw (.run (.unaryOperand op.text ((← get).kind v))) : Act Fault Value) :=
    spares_get.bind fun h => spares_throw _
  unfold sign
  cases op with
  | not => exact spares_get.bind fun h => spares_pure _
  | neg =>
    dsimp only
    split
    · exact spares_float _
    · exact spares_float _
    · split
      · exact spares_pure _
      · exact hrefuse
    · exact hrefuse
  | pos =>
    dsimp only
    split
    · exact spares_pure _
    · exact spares_pure _
    · split
      · exact spares_pure _
      · exact hrefuse
    · exact hrefuse

theorem outOfRange_spares (i : Int) : Spares (outOfRange i : Act Fault α) := by
  unfold outOfRange
  split
  · exact spares_throw _
  · exact spares_throw _

theorem indexOf_spares (v : Value) : Spares (indexOf v) := by
  unfold indexOf
  split
  · exact spares_pure _
  · exact spares_get.bind fun h => spares_throw _

theorem readProperty_spares (container : Value) (name : String) : Spares (readProperty container name) := by
  unfold readProperty
  refine spares_get.bind fun h => ?_
  split
  · split
    · split
      · exact spares_pure _
      · exact spares_throw _
    · exact spares_throw _
  · exact spares_throw _

theorem readIndex_spares (container key : Value) : Spares (readIndex container key) := by
  unfold readIndex
  refine spares_get.bind fun h => ?_
  split
  · split
    · split
      · split
        · exact spares_pure _
        · split
          · exact spares_throw _
          · exact spares_throw _
      · exact spares_throw _
    · refine (indexOf_spares key).bind fun i => ?_
      split
      · exact spares_pure _
      · exact outOfRange_spares i
  · refine (indexOf_spares key).bind fun i => ?_
    dsimp only
    split
    · exact spares_pure _
    · exact outOfRange_spares i
  · exact spares_throw _

theorem scalarKey_spares (v : Value) : Spares (scalarKey v) := by
  unfold scalarKey
  split
  · exact spares_pure _
  · exact spares_get.bind fun h => spares_throw _

mutual

theorem eval_spares (env : Env) : ∀ e : Expr, Spares (eval env e)
  | .literal s => spares_pure _
  | .name n => by
    unfold eval
    split
    · exact spares_pure _
    · exact spares_throw _
  | .member obj n => by
    unfold eval
    exact (eval_spares env obj).bind fun c => readProperty_spares c n
  | .index obj key => by
    unfold eval
    exact (eval_spares env obj).bind fun c => (eval_spares env key).bind fun k => readIndex_spares c k
  | .call n args => by
    unfold eval
    split
    · exact spares_throw _
    · rename_i f _
      exact (evalAll_spares env args).bind fun vs => lift_spares (f.apply_spares vs) _
  | .list xs => by
    unfold eval
    exact (evalAll_spares env xs).bind fun vs => spares_alloc _
  | .object ps => by
    unfold eval
    exact (evalPairs_spares env [] ps).bind fun es => spares_alloc _
  | .unary op e => by
    unfold eval
    exact (eval_spares env e).bind fun v => sign_spares op v
  | .binary op l r => by
    unfold eval
    exact (eval_spares env l).bind fun a => (eval_spares env r).bind fun b => operate_spares op a b
  | .logical op l r => by
    unfold eval
    refine (eval_spares env l).bind fun a => spares_get.bind fun h => ?_
    split
    · exact spares_pure _
    · exact eval_spares env r

theorem evalAll_spares (env : Env) : ∀ es : List Expr, Spares (evalAll env es)
  | [] => spares_pure _
  | e :: es => by
    unfold evalAll
    exact (eval_spares env e).bind fun v => (evalAll_spares env es).bind fun vs => spares_pure _

theorem evalPairs_spares (env : Env) (entries : List (Scalar × Value)) :
    ∀ ps : List (Expr × Expr), Spares (evalPairs env entries ps)
  | [] => spares_pure _
  | (ke, ve) :: ps => by
    unfold evalPairs
    exact (eval_spares env ke).bind fun k => (scalarKey_spares k).bind fun k =>
      (eval_spares env ve).bind fun v => evalPairs_spares env (assignKey entries k v) ps

end

end Script

end StepFlow
