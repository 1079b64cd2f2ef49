/-
  StepFlow.Proofs.Script.Containment — which errors leave a script.

  An operator turns wrong types and zero divisors into errors of the language, a call turns
  wrong types and wrong values into one. What else they fail with leaves under its own class:
  for an expression, these classes can be read off it (`Expr.leaks`).

  Proved, for every text, read-only names and memory:
  (1) `BinaryOp.apply_raises`, `Builtin.apply_raises`: what operators and functions fail with.
  (2) `eval_raises`, `exec_raises`: a script fails with an error of the language, or with one of
      the classes that its statements leak; never with an error of a text that is no script.
  (3) `parse_fails`: a text that is no script has an error of its own, or a numeral that cannot
      be read, which leaves as what reading it fails with.
  (4) `errors_that_leave`: these, for a script and for an expression.
-/

import Mathlib
import StepFlow.Proofs.Value.Failing
import StepFlow.Script.Exec

namespace StepFlow

variable {ε δ σ α β : Type}

/-- Whatever the computation fails with is such, wherever it starts. -/
def Raises (P : ε → Prop) (a : ExceptT ε (StateM σ) α) : Prop := ∀ s, Fails P (a.run s).1

namespace Raises

variable {P Q : ε → Prop}

theorem pure (x : α) : Raises P (Pure.pure x : ExceptT ε (StateM σ) α) := fun _ => .ok x

theorem throw {e : ε} (h : P e) : Raises P (MonadExcept.throw e : ExceptT ε (StateM σ) α) := fun _ => .error h

theorem get : Raises P (MonadState.get : ExceptT ε (StateM σ) σ) := fun s => .ok s

theorem modify (f : σ → σ) : Raises P (modify f : ExceptT ε (StateM σ) Unit) := fun _ => .ok ()

theorem bind {a : ExceptT ε (StateM σ) α} {f : α → ExceptT ε (StateM σ) β} (ha : Raises P a)
    (hf : ∀ x, Raises P (f x)) : Raises P (a >>= f) := by
  intro s
  have ha := ha s
  show Fails P (ExceptT.bindCont f (a.run s).1 (a.run s).2).1
  generalize a.run s = r at ha ⊢
  obtain ⟨e | x, k⟩ := r
  · exact .error (ha e rfl)
  · exact hf x k

theorem ite {c : Prop} [Decidable c] {a b : ExceptT ε (StateM σ) α} (ha : Raises P a) (hb : Raises P b) :
    Raises P (if c then a else b) := by
  split
  · exact ha
  · exact hb

/-- What is done unless something is wrong. -/
theorem guard {c : Prop} [Decidable c] {e : ε} {f : Unit → ExceptT ε (StateM σ) α} (he : P e)
    (hf : Raises P (f ())) : Raises P (if c then MonadExcept.throw e >>= f else f ()) :=
  ite (throw he) hf

theorem adapt {f : ε → δ} {R : δ → Prop} {a : ExceptT ε (StateM σ) α} (ha : Raises P a) (h : ∀ e, P e → R (f e)) :
    Raises R (ExceptT.adapt f a) := by
  intro s
  have ha := ha s
  show Fails R ((a.run s).1.mapError f)
  generalize (a.run s).1 = r at ha ⊢
  cases r with
  | error e => exact .error (h e (ha e rfl))
  | ok x => exact .ok x

theorem mono {a : ExceptT ε (StateM σ) α} (ha : Raises P a) (h : ∀ e, P e → Q e) : Raises Q a :=
  fun s => (ha s).mono h

theorem ofExcept {x : Except ε α} (hx : Fails P x) : Raises P (Act.ofExcept x) := fun _ => hx

theorem look {f : Heap → Except ε α} (hf : ∀ h, Fails P (f h)) : Raises P (Act.look f) := fun h => hf h

theorem alloc (c : Cell) : Raises P (Act.alloc c : Act ε Value) := fun _ => .ok _

theorem float (x : Float) : Raises P (Act.float x : Act ε Value) := fun _ => .ok _

end Raises

theorem Raises.widen {a : Act Trouble α} {cs ds : List String} (ha : Raises (Trouble.In cs) a) (h : cs ⊆ ds) :
    Raises (Trouble.In ds) a :=
  ha.mono fun _ he => h he

open Trouble (In)

/-! ## Operators -/

/-- The classes under which what an operator fails with leaves a script. -/
def BinaryOp.leaks : BinaryOp → List String
  | .add | .sub | .mul | .div => ["OverflowError"]
  | .mod => ["ValueError", "OverflowError", "KeyError"]
  | .eq | .ne | .order _ => ["RecursionError"]

/-- The classes that an operator fails with: what leaves a script, and what becomes an error of it. -/
def BinaryOp.classes (op : BinaryOp) : List String := "TypeError" :: "ZeroDivisionError" :: op.leaks

namespace Operator

theorem arithmetic_raises {cs : List String} {ints : Int → Int → Act Trouble Value}
    {floats : Float → Float → Act Trouble Value} (ht : "TypeError" ∈ cs) (ho : "OverflowError" ∈ cs)
    (hi : ∀ n m, Raises (In cs) (ints n m)) (hf : ∀ x y, Raises (In cs) (floats x y)) (a b : Value) :
    Raises (In cs) (arithmetic ints floats a b) := by
  have hfloat : ∀ s : Scalar, Fails (In cs) s.toFloat := fun s => s.toFloat_fails.widen (by simp [ht, ho])
  unfold arithmetic
  split
  · split
    · exact hi _ _
    · exact .ite ((Raises.ofExcept (hfloat _)).bind fun x => (Raises.ofExcept (hfloat _)).bind fun y => hf x y)
        (.throw (by simpa using ht))
  · exact .throw (by simpa using ht)

theorem repetitions_fails (n : Int) : Fails (In ["OverflowError"]) (repetitions n) := .ite (.ok _) (.error (by simp))

theorem add_raises (a b : Value) : Raises (In BinaryOp.add.classes) (add a b) := by
  unfold add
  split
  · exact .pure _
  · refine Raises.get.bind fun h => ?_
    split
    · exact .alloc _
    · exact .throw (by simp [BinaryOp.classes])
  · exact arithmetic_raises (by simp [BinaryOp.classes]) (by simp [BinaryOp.classes, BinaryOp.leaks])
      (fun _ _ => .pure _) (fun _ _ => .float _) _ _

theorem sub_raises (a b : Value) : Raises (In BinaryOp.sub.classes) (sub a b) :=
  arithmetic_raises (by simp [BinaryOp.classes]) (by simp [BinaryOp.classes, BinaryOp.leaks])
    (fun _ _ => .pure _) (fun _ _ => .float _) a b

theorem repeated_raises (v : Value) (n : Int) : Raises (In BinaryOp.mul.classes) (repeated v n) := by
  have hcount : Raises (In BinaryOp.mul.classes) (Act.ofExcept (repetitions n)) :=
    .ofExcept ((repetitions_fails n).widen (by simp [BinaryOp.classes, BinaryOp.leaks]))
  unfold repeated
  split
  · exact hcount.bind fun k => .guard (by simp [BinaryOp.classes, BinaryOp.leaks]) (.pure _)
  · refine Raises.get.bind fun h => ?_
    split
    · exact hcount.bind fun k => .alloc _
    · exact .throw (by simp [BinaryOp.classes])
  · exact .throw (by simp [BinaryOp.classes])

theorem mul_raises (a b : Value) : Raises (In BinaryOp.mul.classes) (mul a b) := by
  unfold mul
  dsimp only
  split
  · exact repeated_raises _ _
  · exact repeated_raises _ _
  · exact arithmetic_raises (by simp [BinaryOp.classes]) (by simp [BinaryOp.classes, BinaryOp.leaks])
      (fun _ _ => .pure _) (fun _ _ => .float _) _ _

theorem div_raises (a b : Value) : Raises (In BinaryOp.div.classes) (div a b) := by
  refine arithmetic_raises (by simp [BinaryOp.classes]) (by simp [BinaryOp.classes, BinaryOp.leaks])
    (fun n m => .ite (.throw (by simp [BinaryOp.classes])) ?_)
    (fun x y => .ite (.throw (by simp [BinaryOp.classes])) (.float _)) a b
  split
  · exact .float _
  · exact .throw (by simp [BinaryOp.classes, BinaryOp.leaks])

theorem mod_raises (a b : Value) : Raises (In BinaryOp.mod.classes) (mod a b) := by
  unfold mod
  split
  · exact (Raises.look fun h => (Template.fill_fails h _ b).widen
      (by simp [Template.classes, BinaryOp.classes, BinaryOp.leaks])).bind fun t => .pure _
  · exact arithmetic_raises (by simp [BinaryOp.classes]) (by simp [BinaryOp.classes, BinaryOp.leaks])
      (fun n m => .ite (.throw (by simp [BinaryOp.classes])) (.pure _))
      (fun x y => .ite (.throw (by simp [BinaryOp.classes])) (.float _)) _ _

end Operator

theorem BinaryOp.apply_raises (op : BinaryOp) (a b : Value) : Raises (In op.classes) (op.apply a b) := by
  unfold BinaryOp.apply
  cases op with
  | add => exact Operator.add_raises a b
  | sub => exact Operator.sub_raises a b
  | mul => exact Operator.mul_raises a b
  | div => exact Operator.div_raises a b
  | mod => exact Operator.mod_raises a b
  | eq | ne =>
    exact (Raises.look fun h => (h.equal_fails a b).widen (by simp [classes, leaks])).bind fun x => .pure _
  | order op =>
    exact (Raises.look fun h => (h.order_fails op a b).widen (by simp [classes, leaks])).bind fun x => .pure _

/-! ## Functions -/

namespace Builtin

/-- The classes under which what a function fails with leaves a script. -/
def leaks : Builtin → List String
  | .int | .float | .round => ["OverflowError"]
  | .min | .max | .contains => ["RecursionError"]
  | .len | .str | .bool | .abs | .lower | .upper => []

/-- The classes that a function fails with: what leaves a script, and what becomes an error of it. -/
def classes (f : Builtin) : List String := "TypeError" :: "ValueError" :: f.leaks

theorem size_fails (h : Heap) (v : Value) : Fails (In ["TypeError"]) (size h v) := by
  unfold size
  split
  · exact .ok _
  · exact .error (by simp)
  · split
    · exact .ok _
    · exact .ok _

theorem readInt_fails (base : Nat) (s : String) : Fails (In ["ValueError"]) (readInt base s) := by
  unfold readInt
  split
  · exact .ok _
  · exact .error (by simp)
  · exact .error (by simp)

theorem toInt_fails (h : Heap) (v : Value) : Fails (In int.classes) (toInt h v) := by
  unfold toInt
  split
  · exact (readInt_fails 10 _).widen (by simp [classes])
  · exact .ite ((Scalar.truncated_fails _).widen (by simp [classes, leaks])) (.error (by simp [classes]))
  · exact .error (by simp [classes])

theorem integerArgument_fails (h : Heap) (v : Value) : Fails (In ["TypeError"]) (integerArgument h v) := by
  unfold integerArgument
  split
  · split
    · exact .ok _
    · exact .error (by simp)
  · exact .error (by simp)

theorem toIntInBase_fails (h : Heap) (v base : Value) : Fails (In int.classes) (toIntInBase h v base) := by
  unfold toIntInBase
  refine ((integerArgument_fails h base).widen (by simp [classes])).bind fun b => .guard (by simp [classes]) ?_
  split
  · exact (readInt_fails _ _).widen (by simp [classes])
  · exact .error (by simp [classes])

theorem toFloat_raises (v : Value) : Raises (In float.classes) (toFloat v) := by
  unfold toFloat
  split
  · split
    · exact .float _
    · exact .throw (by simp [classes])
  · exact .pure _
  · exact .pure _
  · exact .ite ((Raises.ofExcept ((Scalar.toFloat_fails _).widen (by simp [classes, leaks]))).bind fun x => .float x)
      (.throw (by simp [classes]))
  · exact Raises.get.bind fun h => .throw (by simp [classes])

theorem absolute_raises (v : Value) : Raises (In ["TypeError"]) (absolute v) := by
  unfold absolute
  split
  · exact .float _
  · exact .float _
  · split
    · exact .pure _
    · exact .throw (by simp)
  · exact Raises.get.bind fun h => .throw (by simp)

theorem members_fails (h : Heap) (v : Value) : Fails (In ["TypeError"]) (members h v) := by
  unfold members
  split
  · exact .ok _
  · exact .error (by simp)
  · split
    · exact .ok _
    · exact .ok _

theorem extreme_fails (h : Heap) (op : OrderOp) (best : Value) (vs : List Value) :
    Fails (In ["TypeError", "RecursionError"]) (extreme h op best vs) := by
  induction vs generalizing best with
  | nil => exact .ok _
  | cons v vs ih => exact (h.order_fails op v best).bind fun beyond => ih _

theorem extremeOfAll_fails (h : Heap) (f : Builtin) (op : OrderOp) (vs : List Value) :
    Fails (In ["TypeError", "ValueError", "RecursionError"])
      (match vs with | [] => throw (.value (.emptySequence f.text)) | v :: vs => extreme h op v vs) := by
  cases vs with
  | nil => exact .error (by simp)
  | cons v vs => exact (extreme_fails h op v vs).widen (by simp)

theorem extremeOf_fails (h : Heap) (f : Builtin) (op : OrderOp) (args : List Value) :
    Fails (In ["TypeError", "ValueError", "RecursionError"]) (extremeOf h f op args) := by
  unfold extremeOf
  split
  · exact .error (by simp)
  · exact ((members_fails h _).widen (by simp)).bind (extremeOfAll_fails h f op)
  · exact .bind (.ok _) (extremeOfAll_fails h f op)

theorem roundFloat_fails (x : Float) (places : Int) : Fails (In ["OverflowError"]) (roundFloat x places) := by
  unfold roundFloat
  split
  · exact .ite (.ok _) (.ite (.ok _) (.ite (.error (by simp)) (.ok _)))
  · exact .ok _

theorem roundWhole_fails (s : Scalar) : Fails (In round.classes) (roundWhole s) := by
  unfold roundWhole
  split
  · split
    · exact .ok _
    · exact .error (by simp [classes, leaks])
  · exact .error (by simp [classes])
  · split
    · exact .ok _
    · exact .error (by simp [classes])

theorem rounded_raises (v places : Value) : Raises (In round.classes) (rounded v places) := by
  unfold rounded
  refine Raises.get.bind fun h => ?_
  split
  · exact .throw (by simp [classes])
  · refine .guard (by simp [classes]) ?_
    split
    · exact (Raises.ofExcept (roundWhole_fails _)).bind fun n => .pure _
    · refine (Raises.ofExcept ((integerArgument_fails h _).widen (by simp [classes]))).bind fun p => ?_
      split
      · exact (Raises.ofExcept ((roundFloat_fails _ p).widen (by simp [classes, leaks]))).bind fun x => .float x
      · exact .float _
      · exact .pure _

theorem listHolds_fails (h : Heap) (item : Value) (xs : List Value) :
    Fails (In ["RecursionError"]) (listHolds h item xs) := by
  induction xs with
  | nil => exact .ok _
  | cons x xs ih => exact (h.same_fails x item).bind fun _ => .ite (.ok _) ih

theorem holds_fails (h : Heap) (container item : Value) :
    Fails (In ["TypeError", "RecursionError"]) (holds h container item) := by
  unfold holds
  split
  · split
    · exact .ok _
    · exact .error (by simp)
  · exact .error (by simp)
  · split
    · exact (listHolds_fails h item _).widen (by simp)
    · split
      · exact .ok _
      · exact .error (by simp)

theorem onlyArgument_fails (callee : String) (vs : List Value) : Fails (In ["TypeError"]) (onlyArgument callee vs) := by
  unfold onlyArgument
  split
  · exact .error (by simp)
  · exact .ok _
  · exact .error (by simp)

theorem soleArgument_fails (f : Builtin) (vs : List Value) : Fails (In ["TypeError"]) (soleArgument f vs) := by
  unfold soleArgument
  split
  · exact .ok _
  · exact .error (by simp)

theorem shown_raises (f : Builtin) (callee : String) (change : String → String) (args : List Value) :
    Raises (In f.classes) (do
      let v ← Act.ofExcept (onlyArgument callee args)
      return .str (change (← Act.look (·.plainText v))) : Act Trouble Value) :=
  (Raises.ofExcept ((onlyArgument_fails callee args).widen (by simp [classes]))).bind fun v =>
    (Raises.look fun h => (h.plainText_fails v).widen (by simp [classes])).bind fun t => .pure _

theorem apply_raises (f : Builtin) (args : List Value) : Raises (In f.classes) (f.apply args) := by
  unfold Builtin.apply
  cases f with
  | len =>
    exact (Raises.ofExcept ((soleArgument_fails _ args).widen (by simp [classes]))).bind fun v =>
      (Raises.look fun h => (size_fails h v).widen (by simp [classes])).bind fun n => .pure _
  | str => exact shown_raises .str "_to_str" id args
  | lower => exact shown_raises .lower unnamed Text.lowerText args
  | upper => exact shown_raises .upper unnamed Text.upperText args
  | int =>
    dsimp only
    split
    · exact .pure _
    · exact (Raises.look fun h => toInt_fails h _).bind fun n => .pure _
    · exact (Raises.look fun h => toIntInBase_fails h _ _).bind fun n => .pure _
    · exact .throw (by simp [classes])
  | float =>
    dsimp only
    split
    · exact .float _
    · exact toFloat_raises _
    · exact .throw (by simp [classes])
  | bool =>
    dsimp only
    split
    · exact .pure _
    · exact Raises.get.bind fun h => .pure _
    · exact .throw (by simp [classes])
  | abs =>
    exact (Raises.ofExcept ((soleArgument_fails _ args).widen (by simp [classes]))).bind fun v =>
      (absolute_raises v).widen (by simp [classes])
  | min | max => exact .look fun h => (extremeOf_fails h _ _ args).widen (by simp [classes, leaks])
  | round =>
    dsimp only
    split
    · exact .throw (by simp [classes])
    · exact rounded_raises _ _
    · exact rounded_raises _ _
    · exact .throw (by simp [classes])
  | contains =>
    dsimp only
    split
    · exact .throw (by simp [classes])
    · exact .throw (by simp [classes])
    · exact (Raises.look fun h => (holds_fails h _ _).widen (by simp [classes, leaks])).bind fun x => .pure _
    · exact .throw (by simp [classes])

end Builtin

/-! ## Expressions -/

/-- All classes that a script can leak. -/
def leakedClasses : List String := ["ValueError", "OverflowError", "KeyError", "RecursionError"]

theorem BinaryOp.leaks_subset (op : BinaryOp) : op.leaks ⊆ leakedClasses := by
  cases op <;> simp [leaks, leakedClasses]

theorem Builtin.leaks_subset (f : Builtin) : f.leaks ⊆ leakedClasses := by
  cases f <;> simp [leaks, leakedClasses]

namespace Expr

mutual

/-- The classes under which what an expression fails with leaves a script. -/
def leaks : Expr → List String
  | .literal _ | .name _ => []
  | .member obj _ => obj.leaks
  | .index obj key => obj.leaks ++ (key.leaks ++ ["ValueError"])
  | .call n args => leaksAll args ++ ((Builtin.ofText? n).map Builtin.leaks).getD []
  | .list xs => leaksAll xs
  | .object ps => leaksPairs ps
  | .unary _ e => e.leaks
  | .binary op l r => l.leaks ++ (r.leaks ++ op.leaks)
  | .logical _ l r => l.leaks ++ r.leaks

def leaksAll : List Expr → List String
  | [] => []
  | e :: es => e.leaks ++ leaksAll es

def leaksPairs : List (Expr × Expr) → List String
  | [] => []
  | (k, v) :: ps => k.leaks ++ (v.leaks ++ leaksPairs ps)

end

mutual

theorem leaks_subset : ∀ e : Expr, e.leaks ⊆ leakedClasses
  | .literal _ | .name _ => List.nil_subset _
  | .member obj _ => leaks_subset obj
  | .index obj key =>
    List.append_subset.mpr ⟨leaks_subset obj, List.append_subset.mpr ⟨leaks_subset key, by simp [leakedClasses]⟩⟩
  | .call n args => by
    refine List.append_subset.mpr ⟨leaksAll_subset args, ?_⟩
    cases Builtin.ofText? n with
    | none => exact List.nil_subset _
    | some f => exact f.leaks_subset
  | .list xs => leaksAll_subset xs
  | .object ps => leaksPairs_subset ps
  | .unary _ e => leaks_subset e
  | .binary op l r =>
    List.append_subset.mpr ⟨leaks_subset l, List.append_subset.mpr ⟨leaks_subset r, op.leaks_subset⟩⟩
  | .logical _ l r => List.append_subset.mpr ⟨leaks_subset l, leaks_subset r⟩

theorem leaksAll_subset : ∀ es : List Expr, leaksAll es ⊆ leakedClasses
  | [] => List.nil_subset _
  | e :: es => List.append_subset.mpr ⟨leaks_subset e, leaksAll_subset es⟩

theorem leaksPairs_subset : ∀ ps : List (Expr × Expr), leaksPairs ps ⊆ leakedClasses
  | [] => List.nil_subset _
  | (k, v) :: ps =>
    List.append_subset.mpr ⟨leaks_subset k, List.append_subset.mpr ⟨leaks_subset v, leaksPairs_subset ps⟩⟩

end

end Expr

namespace Statement

def leaks : Statement → List String
  | .expr e => e.leaks
  | .assign target op value => value.leaks ++ (target.expr.leaks ++ (op.binary?.map BinaryOp.leaks).getD [])

theorem leaks_subset (s : Statement) : s.leaks ⊆ leakedClasses := by
  cases s with
  | expr e => exact e.leaks_subset
  | assign target op value =>
    refine List.append_subset.mpr ⟨value.leaks_subset, List.append_subset.mpr ⟨target.expr.leaks_subset, ?_⟩⟩
    cases op.binary? with
    | none => exact List.nil_subset _
    | some op => exact op.leaks_subset

end Statement

namespace Script

/-- An error of the language, or a trouble of one of the classes. -/
inductive Fault.Among (cs : List String) : Fault → Prop
  | run (e : RunError) : Among cs (.run e)
  | trouble {t : Trouble} : t.In cs → Among cs (.trouble t)

open Fault (Among)

section Widening

variable {a : ExceptT Fault (StateM σ) α} {cs ds : List String}

theorem Fault.Among.widen {f : Fault} (hf : Among cs f) (h : cs ⊆ ds) : Among ds f := by
  cases hf with
  | run e => exact .run e
  | trouble ht => exact .trouble (h ht)

theorem raises_widen (ha : Raises (Among cs) a) (h : cs ⊆ ds) : Raises (Among ds) a := ha.mono fun _ hf => hf.widen h

theorem raises_left (ha : Raises (Among cs) a) : Raises (Among (cs ++ ds)) a :=
  raises_widen ha (List.subset_append_left cs ds)

theorem raises_right (ha : Raises (Among ds) a) : Raises (Among (cs ++ ds)) a :=
  raises_widen ha (List.subset_append_right cs ds)

theorem raises_run (e : RunError) : Raises (Among cs) (throw (.run e) : ExceptT Fault (StateM σ) α) := .throw (.run e)

end Widening

theorem operatorFault_among (op : BinaryOp) (left right : Kind) {t : Trouble} (ht : t.In op.classes) :
    Among op.leaks (operatorFault op left right t) := by
  cases t with
  | type _ => exact .run _
  | zeroDivision => exact .run _
  | _ => exact .trouble (by simpa [BinaryOp.classes] using ht)

theorem callFault_among (name : String) {f : Builtin} {t : Trouble} (ht : t.In f.classes) :
    Among f.leaks (callFault name t) := by
  cases t with
  | type _ => exact .run _
  | value _ => exact .run _
  | _ => exact .trouble (by simpa [Builtin.classes] using ht)

theorem operate_raises (op : BinaryOp) (a b : Value) : Raises (Among op.leaks) (operate op a b) :=
  Raises.get.bind fun _ => (op.apply_raises a b).adapt fun _ => operatorFault_among op _ _

theorem sign_raises (op : UnaryOp) (v : Value) : Raises (Among []) (sign op v) := by
  have hrefuse : Raises (Among []) (do throw (.run (.unaryOperand op.text ((← get).kind v))) : Act Fault Value) :=
    Raises.get.bind fun h => raises_run _
  unfold sign
  cases op with
  | not => exact Raises.get.bind fun h => .pure _
  | neg =>
    dsimp only
    split
    · exact .float _
    · exact .float _
    · split
      · exact .pure _
      · exact hrefuse
    · exact hrefuse
  | pos =>
    dsimp only
    split
    · exact .pure _
    · exact .pure _
    · split
      · exact .pure _
      · exact hrefuse
    · exact hrefuse

theorem outOfRange_raises (i : Int) : Raises (Among ["ValueError"]) (outOfRange i : Act Fault α) := by
  have htext := intText_fails i
  unfold outOfRange
  split
  · exact raises_run _
  · exact .throw (.trouble (htext _ ‹_›))

theorem indexOf_raises (v : Value) : Raises (Among []) (indexOf v) := by
  unfold indexOf
  split
  · exact .pure _
  · exact Raises.get.bind fun h => raises_run _

theorem readProperty_raises (container : Value) (name : String) : Raises (Among []) (readProperty container name) := by
  unfold readProperty
  refine Raises.get.bind fun h => ?_
  split
  · split
    · split
      · exact .pure _
      · exact raises_run _
    · exact raises_run _
  · exact raises_run _

theorem readIndex_raises (container key : Value) : Raises (Among ["ValueError"]) (readIndex container key) := by
  have hindex : Raises (Among ["ValueError"]) (indexOf key) := raises_widen (indexOf_raises key) (List.nil_subset _)
  unfold readIndex
  refine Raises.get.bind fun h => ?_
  split
  · split
    · split
      · rename_i k
        have htext := k.display_fails
        split
        · exact .pure _
        · split
          · exact raises_run _
          · exact .throw (.trouble (htext _ ‹_›))
      · exact raises_run _
    · refine hindex.bind fun i => ?_
      split
      · exact .pure _
      · exact outOfRange_raises i
  · refine hindex.bind fun i => ?_
    dsimp only
    split
    · exact .pure _
    · exact outOfRange_raises i
  · exact raises_run _

theorem scalarKey_raises (v : Value) : Raises (Among []) (scalarKey v) := by
  unfold scalarKey
  split
  · exact .pure _
  · exact Raises.get.bind fun h => raises_run _

mutual

theorem eval_raises (env : Env) : ∀ e : Expr, Raises (Among e.leaks) (eval env e)
  | .literal s => .pure _
  | .name n => by
    unfold eval
    split
    · exact .pure _
    · exact raises_run _
  | .member obj n => by
    unfold eval
    exact (eval_raises env obj).bind fun c => raises_widen (readProperty_raises c n) (List.nil_subset _)
  | .index obj key => by
    unfold eval
    exact (raises_left (eval_raises env obj)).bind fun c => raises_right
      ((raises_left (eval_raises env key)).bind fun k => raises_right (readIndex_raises c k))
  | .call n args => by
    unfold eval
    split
    · exact raises_run _
    · rename_i f hf
      refine (raises_left (evalAll_raises env args)).bind fun vs => raises_right ?_
      rw [hf]
      exact (f.apply_raises vs).adapt fun _ => callFault_among n
  | .list xs => by
    unfold eval
    exact (evalAll_raises env xs).bind fun vs => .alloc _
  | .object ps => by
    unfold eval
    exact (evalPairs_raises env [] ps).bind fun es => .alloc _
  | .unary op e => by
    unfold eval
    exact (eval_raises env e).bind fun v => raises_widen (sign_raises op v) (List.nil_subset _)
  | .binary op l r => by
    unfold eval
    exact (raises_left (eval_raises env l)).bind fun a => raises_right
      ((raises_left (eval_raises env r)).bind fun b => raises_right (operate_raises op a b))
  | .logical op l r => by
    unfold eval
    exact (raises_left (eval_raises env l)).bind fun a => Raises.get.bind fun h =>
      .ite (.pure _) (raises_right (eval_raises env r))

theorem evalAll_raises (env : Env) : ∀ es : List Expr, Raises (Among (Expr.leaksAll es)) (evalAll env es)
  | [] => .pure _
  | e :: es => by
    unfold evalAll
    exact (raises_left (eval_raises env e)).bind fun v =>
      (raises_right (evalAll_raises env es)).bind fun vs => .pure _

theorem evalPairs_raises (env : Env) (entries : List (Scalar × Value)) :
    ∀ ps : List (Expr × Expr), Raises (Among (Expr.leaksPairs ps)) (evalPairs env entries ps)
  | [] => .pure _
  | (ke, ve) :: ps => by
    unfold evalPairs
    exact (raises_left (eval_raises env ke)).bind fun k =>
      (raises_widen (scalarKey_raises k) (List.nil_subset _)).bind fun k => raises_right
        ((raises_left (eval_raises env ve)).bind fun v =>
          raises_right (evalPairs_raises env (assignKey entries k v) ps))

end

/-! ## Statements -/

theorem onHeap_raises {P : Fault → Prop} {f : Env → Act Fault α} (hf : ∀ env, Raises P (f env)) :
    Raises P (onHeap f) :=
  fun m => hf m.env m.heap

theorem bind_raises (readonly : List String) (name : String) (v : Value) :
    Raises (Among []) (Script.bind readonly name v) :=
  .guard (.run _) (.modify _)

theorem storeProperty_raises (container : Value) (name : String) (v : Value) :
    Raises (Among []) (storeProperty container name v) := by
  unfold storeProperty
  refine Raises.get.bind fun m => ?_
  dsimp only
  split
  · split
    · exact .modify _
    · exact raises_run _
  · exact raises_run _

theorem storeIndex_raises (container key v : Value) : Raises (Among ["ValueError"]) (storeIndex container key v) := by
  unfold storeIndex
  refine Raises.get.bind fun m => ?_
  dsimp only
  split
  · split
    · split
      · exact .modify _
      · exact raises_run _
    · refine (onHeap_raises fun _ => raises_widen (indexOf_raises key) (List.nil_subset _)).bind fun i => ?_
      split
      · exact .modify _
      · exact onHeap_raises fun _ => outOfRange_raises i
  · exact raises_run _

theorem store_raises (readonly : List String) (target : Target) (v : Value) :
    Raises (Among target.expr.leaks) (store readonly target v) := by
  unfold store
  cases target with
  | name n => exact bind_raises readonly n v
  | member obj n =>
    exact (onHeap_raises fun env => eval_raises env obj).bind fun c =>
      raises_widen (storeProperty_raises c n v) (List.nil_subset _)
  | index obj key =>
    exact (raises_left (onHeap_raises fun env => eval_raises env obj)).bind fun c => raises_right
      ((raises_left (onHeap_raises fun env => eval_raises env key)).bind fun k =>
        raises_right (storeIndex_raises c k v))

theorem assigned_raises (target : Target) (op : AssignOp) (value : Expr) :
    Raises (Among (Statement.assign target op value).leaks) (assigned target op value) := by
  unfold assigned
  refine (raises_left (onHeap_raises fun env => eval_raises env value)).bind fun v => raises_right ?_
  split
  · exact .pure _
  · rename_i op hop
    refine (raises_left (onHeap_raises fun env => eval_raises env target.expr)).bind fun old => raises_right ?_
    rw [hop]
    exact onHeap_raises fun _ => operate_raises op old v

theorem execStatement_raises (readonly : List String) (s : Statement) :
    Raises (Among s.leaks) (execStatement readonly s) := by
  unfold execStatement
  cases s with
  | expr e => exact (onHeap_raises fun env => eval_raises env e).bind fun _ => .pure _
  | assign target op value =>
    exact (assigned_raises target op value).bind fun v =>
      raises_right (raises_left (store_raises readonly target v))

theorem exec_raises (readonly : List String) (ss : List Statement) :
    Raises (Among (ss.flatMap Statement.leaks)) (exec readonly ss) := by
  induction ss with
  | nil => exact .pure _
  | cons s ss ih => exact (raises_left (execStatement_raises readonly s)).bind fun _ => raises_right ih

/-! ## Texts -/

/-- What a text fails with that is no script: an error of its own, or a numeral that cannot be read. -/
inductive Fault.Misread : Fault → Prop
  | bad (e : SyntaxError) : Misread (.bad e)
  | numeral (v : ValueTrouble) : Misread (.trouble (.value v))

theorem readNumeral_fails (raw : List Char) (fractional : Bool) :
    Fails (fun t => ∃ v, t = .value v) (readNumeral raw fractional) := by
  unfold readNumeral
  split
  · split
    · exact .ok _
    · exact .error ⟨_, rfl⟩
  · split
    · exact .ok _
    · exact .error ⟨_, rfl⟩
    · exact .error ⟨_, rfl⟩

/-- Only numerals are trouble. -/
theorem pieceAt_fails (c : Char) (cs : List Char) :
    Fails (fun e => ∀ t, e = .trouble t → ∃ v, t = .value v) (pieceAt c cs) := by
  unfold pieceAt
  refine .ite (.ok _) (.ite (.ok _) (.ite (.ok _) (.ite ?_ (.ite (.ok _) (.ite ?_ ?_)))))
  · have hnumeral := readNumeral_fails ((c :: cs).take (numeralLength (c :: cs)).1) (numeralLength (c :: cs)).2
    dsimp only
    split
    · exact .ok _
    · rename_i t ht
      refine .error ?_
      rintro _ ⟨⟩
      exact hnumeral t ht
  · split
    · exact .ok _
    · exact .error fun t ht => (by cases ht)
  · split
    · exact .ok _
    · exact .error fun t ht => (by cases ht)

theorem scanFrom_fails (line column depth : Nat) (cs : List Char) :
    Fails Fault.Misread (scanFrom line column depth cs) := by
  fun_induction scanFrom line column depth cs with
  | case1 => exact .ok _
  | case2 => exact .error (.bad _)
  | case3 line column depth c cs t hpiece =>
    obtain ⟨v, rfl⟩ := pieceAt_fails c cs _ hpiece t rfl
    exact .error (.numeral v)
  | case4 _ _ _ _ _ _ _ ih => exact ih.map _
  | case5 _ _ _ _ _ _ _ _ ih => exact ih.map _
  | case6 _ _ _ _ _ _ _ _ _ _ ih => exact ih

theorem parse_fails (parse : List Token → Except Unexpected α) (text : String) :
    Fails Fault.Misread (parseTokens parse text) := by
  have hscan : Fails Fault.Misread (scan text) := .ite (.error (.bad _)) (scanFrom_fails _ _ _ _)
  unfold parseTokens
  split
  · rename_i f hf
    exact .error (hscan f hf)
  · generalize parse _ = r
    cases r with
    | error e => exact .error (.bad _)
    | ok x => exact .ok x

/-- A text that is no script is not run. One that is a script fails with errors of the language, or
    under a class that one of its statements leaks; so does an expression. So syntax errors leave
    exactly if the text has one, and wrong types and zero divisors never leave under their own class:
    of other classes than the language's, there are the four of `leakedClasses`. -/
theorem errors_that_leave (text : String) (readonly : List String) (m : Memory) :
    (match parseScript text with
      | .error f => execute text readonly m = (.error f, m) ∧ f.Misread
      | .ok ss => Fails (Fault.Among (ss.flatMap Statement.leaks)) (execute text readonly m).1 ∧
          ss.flatMap Statement.leaks ⊆ leakedClasses) ∧
    (match parseExpression text with
      | .error f => (evaluate text m.env).run m.heap = (.error f, m.heap) ∧ f.Misread
      | .ok e => Fails (Fault.Among e.leaks) ((evaluate text m.env).run m.heap).1 ∧ e.leaks ⊆ leakedClasses) ∧
    (∀ e, (execute text readonly m).1 = .error (.bad e) ↔ parseScript text = .error (.bad e)) ∧
    ∀ e, ((evaluate text m.env).run m.heap).1 = .error (.bad e) ↔ parseExpression text = .error (.bad e) := by
  have hscript : Fails Fault.Misread (parseScript text) := parse_fails statements text
  have hexpression : Fails Fault.Misread (parseExpression text) := parse_fails expression text
  have hnever : ∀ {α : Type} {cs : List String} {x : Except Fault α} (e : SyntaxError),
      Fails (Among cs) x → x ≠ .error (.bad e) := by
    rintro α cs x e hx rfl
    cases hx _ rfl
  unfold execute evaluate
  refine ⟨?_, ?_, fun e => ?_, fun e => ?_⟩
  · cases hp : parseScript text with
    | error f => exact ⟨rfl, hscript f hp⟩
    | ok ss =>
      refine ⟨exec_raises readonly ss m, fun c hc => ?_⟩
      obtain ⟨s, -, hs⟩ := List.mem_flatMap.mp hc
      exact s.leaks_subset hs
  · cases hp : parseExpression text with
    | error f => exact ⟨rfl, hexpression f hp⟩
    | ok e => exact ⟨eval_raises m.env e m.heap, e.leaks_subset⟩
  · cases parseScript text with
    | error f =>
      show (.error f : Except Fault Unit) = .error (.bad e) ↔ _
      simp
    | ok ss => exact iff_of_false (hnever e (exec_raises readonly ss m)) fun h => (by cases h)
  · cases parseExpression text with
    | error f =>
      show (.error f : Except Fault Value) = .error (.bad e) ↔ _
      simp
    | ok e' => exact iff_of_false (hnever e (eval_raises m.env e' m.heap)) fun h => (by cases h)

/-- The whole part of infinity is an overflow, which a call does not turn into an error of its own. -/
theorem infinity_leaves_a_call :
    (evaluate "int(1e400)" []).run .empty = (.error (.trouble (.overflow .infinityToInt)), .empty) ∧
    ¬ ∀ (text : String) (env : Env) (h : Heap) (f : Fault), ((evaluate text env).run h).1 = .error f →
      f.className = "ExpressionError" ∨ f.className = "ExpressionSyntaxError" := by
  have hrun : (evaluate "int(1e400)" []).run .empty = (.error (.trouble (.overflow .infinityToInt)), .empty) := by cbv
  refine ⟨hrun, fun hall => ?_⟩
  have hclass := hall "int(1e400)" [] .empty _ (congrArg Prod.fst hrun)
  revert hclass
  decide

end Script

end StepFlow
