/-
  StepFlow.Proofs.Script.Making — scripts mention nothing that has not been made.

  A heap is closed if its containers hold only containers and NaNs that it has
  (`Heap.Closed`). A computation makes what it mentions (`Act.Makes`): on a closed heap that has
  its operands, it leaves a closed one that extends it, and has what it gives.

  Proved, for all values, expressions and heaps, which may be shared and cyclic:
  (1) `operate_makes`, `Builtin.apply_makes`: operators and functions do so.
  (2) `eval_makes`: so does the evaluation of an expression.
  (3) `exec_closed`: a script leaves a closed memory closed (`Memory.Closed`), however it ends.
-/

import StepFlow.Proofs.Script.Repetition

namespace StepFlow

/-! ## Closed heaps -/

namespace Heap

variable {h k : Heap}

/-- All that the container holds has been made. -/
def HasAll (h : Heap) : Cell → Prop
  | .list xs => ∀ v ∈ xs, h.Has v
  | .object es => ∀ e ∈ es, h.Has (.scalar e.1) ∧ h.Has e.2

def Closed (h : Heap) : Prop := ∀ r, h.HasAll (h.cell r)

instance (h : Heap) (v : Value) : Decidable (h.Has v) :=
  match v with
  | .ref r => inferInstanceAs (Decidable (r < h.cells.size))
  | .scalar (.nan l) => inferInstanceAs (Decidable (l < h.nextNan))
  | .scalar .null | .scalar (.bool _) | .scalar (.int _) | .scalar (.float _) | .scalar (.str _) => isTrue trivial

instance (h : Heap) (c : Cell) : Decidable (h.HasAll c) :=
  match c with
  | .list xs => inferInstanceAs (Decidable (∀ v ∈ xs, h.Has v))
  | .object es => inferInstanceAs (Decidable (∀ e ∈ es, h.Has (.scalar e.1) ∧ h.Has e.2))

/-- Beyond the heap there are empty lists. -/
theorem closed_of_all (hh : ∀ c ∈ h.cells.toList, h.HasAll c) : h.Closed := by
  intro r
  by_cases hr : r < h.cells.size
  · refine hh _ (Array.mem_toList_iff.mpr (Array.mem_iff_getElem.mpr ⟨r, hr, ?_⟩))
    unfold cell
    exact (dif_pos hr).symm
  · rw [cell_outside hr]
    exact fun _ hv => absurd hv List.not_mem_nil

/-- All that has been made in the first heap has been made in the second. -/
def Older (h k : Heap) : Prop := ∀ {v : Value}, h.Has v → k.Has v

theorem Extends.older (hk : h.Extends k) : h.Older k := fun hv => hv.extends hk

theorem HasAll.older {c : Cell} (hc : h.HasAll c) (hk : h.Older k) : k.HasAll c := by
  cases c with
  | list xs => exact fun v hv => hk (hc v hv)
  | object es => exact fun e he => ⟨hk (hc e he).1, hk (hc e he).2⟩

theorem HasAll.extends {c : Cell} (hc : h.HasAll c) (hk : h.Extends k) : k.HasAll c := hc.older hk.older

theorem Closed.items (hh : h.Closed) {r : Ref} {xs : List Value} (hr : h.cell r = .list xs) : ∀ v ∈ xs, h.Has v := by
  have hc := hh r
  rw [hr] at hc
  exact hc

theorem Closed.entries (hh : h.Closed) {r : Ref} {es : List (Scalar × Value)} (hr : h.cell r = .object es) :
    ∀ e ∈ es, h.Has (.scalar e.1) ∧ h.Has e.2 := by
  have hc := hh r
  rw [hr] at hc
  exact hc

theorem Closed.alloc (hh : h.Closed) {c : Cell} (hc : h.HasAll c) : (h.alloc c).2.Closed := by
  intro r
  by_cases hr : r = h.cells.size
  · rw [hr, Pairing.cell_alloc_new]
    exact hc.extends (h.extends_alloc c)
  · rw [Pairing.cell_alloc_ne hr]
    exact (hh r).extends (h.extends_alloc c)

theorem extends_float (h : Heap) (x : Float) : h.Extends (h.float x).2 := by
  refine ⟨.float h x, ?_⟩
  unfold Heap.float
  split
  · exact Nat.le_succ _
  · exact Nat.le_refl _

theorem has_float (h : Heap) (x : Float) : (h.float x).2.Has (h.float x).1 := by
  unfold Heap.float
  split
  · exact Nat.lt_succ_self _
  · trivial

theorem Closed.float (hh : h.Closed) (x : Float) : (h.float x).2.Closed := by
  have hcell : ∀ r, (h.float x).2.cell r = h.cell r := by
    intro r
    unfold Heap.float
    split <;> rfl
  intro r
  rw [hcell r]
  exact (hh r).extends (h.extends_float x)

theorem size_write (h : Heap) (r : Ref) (c : Cell) : (h.write r c).cells.size = h.cells.size := Array.size_setIfInBounds

theorem older_write (h : Heap) (r : Ref) (c : Cell) : h.Older (h.write r c) := by
  intro v hv
  cases v with
  | ref s =>
    show s < (h.write r c).cells.size
    rw [size_write]
    exact hv
  | scalar s => cases s <;> exact hv

theorem cell_write_same {r : Ref} (hr : r < h.cells.size) (c : Cell) : (h.write r c).cell r = c := by
  simp [Heap.cell, Heap.write, hr]

theorem cell_write_other {r s : Ref} (hs : s ≠ r) (c : Cell) : (h.write r c).cell s = h.cell s := by
  unfold Heap.cell Heap.write
  rw [Array.getD_eq_getD_getElem?, Array.getD_eq_getD_getElem?, Array.getElem?_setIfInBounds_ne hs.symm]

theorem write_outside {r : Ref} (hr : ¬ r < h.cells.size) (c : Cell) : h.write r c = h := by
  unfold Heap.write
  rw [Array.setIfInBounds_eq_of_size_le (Nat.le_of_not_lt hr)]

theorem Closed.write (hh : h.Closed) (r : Ref) {c : Cell} (hc : h.HasAll c) : (h.write r c).Closed := by
  by_cases hr : r < h.cells.size
  · intro s
    by_cases hs : s = r
    · rw [hs, cell_write_same hr]
      exact hc.older (h.older_write r c)
    · rw [cell_write_other hs]
      exact (hh s).older (h.older_write r c)
  · rw [write_outside hr]
    exact hh

end Heap

/-! ## Computations that make what they mention -/

namespace Act

variable {ε δ α β : Type} {h : Heap}

/-- How a computation leaves a heap. -/
structure Leaves (has : Heap → α → Prop) (h : Heap) (r : Except ε α × Heap) : Prop where
  extends' : h.Extends r.2
  closed : r.2.Closed
  made : ∀ x, r.1 = .ok x → has r.2 x

/-- On every closed heap that has what the first one has. -/
def Makes (h : Heap) (has : Heap → α → Prop) (a : Act ε α) : Prop :=
  ∀ k, h.Extends k → k.Closed → Leaves has k (a.run k)

variable {has : Heap → α → Prop} {has' : Heap → β → Prop}

theorem makes_ofExcept {e : Except ε α} (he : ∀ k x, h.Extends k → e = .ok x → has k x) :
    Makes h has (ofExcept e) :=
  fun k hk hc => ⟨.refl k, hc, fun x hx => he k x hk hx⟩

theorem makes_pure {x : α} (hx : ∀ k, h.Extends k → has k x) : Makes h has (pure x : Act ε α) :=
  makes_ofExcept fun k _ hk hy => by
    cases hy
    exact hx k hk

theorem makes_value {v : Value} (hv : h.Has v) : Makes h Heap.Has (pure v : Act ε Value) :=
  makes_pure fun _ hk => hv.extends hk

theorem makes_int (n : Int) : Makes h Heap.Has (pure (.int n) : Act ε Value) := makes_value trivial

theorem makes_bool (b : Bool) : Makes h Heap.Has (pure (.bool b) : Act ε Value) := makes_value trivial

theorem makes_str (s : String) : Makes h Heap.Has (pure (.str s) : Act ε Value) := makes_value trivial

theorem makes_throw (e : ε) : Makes h has (throw e : Act ε α) :=
  makes_ofExcept (e := .error e) fun _ _ _ hy => by cases hy

theorem makes_look {f : Heap → Except ε α} (hf : ∀ k x, h.Extends k → k.Closed → f k = .ok x → has k x) :
    Makes h has (look f) :=
  fun k hk hc => ⟨.refl k, hc, fun x hx => hf k x hk hc hx⟩

/-- What a look at the heap gives, if it does not matter. -/
theorem makes_any (f : Heap → Except ε α) : Makes h (fun _ _ => True) (look f) :=
  makes_look fun _ _ _ _ _ => trivial

theorem makes_some (e : Except ε α) : Makes h (fun _ _ => True) (ofExcept e) :=
  makes_ofExcept fun _ _ _ _ => trivial

theorem makes_get : Makes h (fun k g => g = k ∧ k.Closed) (get : Act ε Heap) :=
  fun k _ hc => ⟨.refl k, hc, fun g hg => by
    cases hg
    exact ⟨rfl, hc⟩⟩

theorem makes_alloc {c : Cell} (hc : h.HasAll c) : Makes h Heap.Has (alloc c : Act ε Value) :=
  fun k hk hclosed => ⟨k.extends_alloc c, hclosed.alloc (hc.extends hk), fun v hv => by
    cases hv
    show k.cells.size < (k.cells.push c).size
    rw [Array.size_push]
    exact Nat.lt_succ_self _⟩

theorem makes_float (x : Float) : Makes h Heap.Has (float x : Act ε Value) :=
  fun k _ hclosed => ⟨k.extends_float x, hclosed.float x, fun v hv => by
    cases hv
    exact k.has_float x⟩

theorem Makes.bind {a : Act ε α} {f : α → Act ε β} (ha : Makes h has a)
    (hf : ∀ k x, h.Extends k → has k x → Makes k has' (f x)) : Makes h has' (a >>= f) := by
  intro k hk hc
  have hfirst := ha k hk hc
  show Leaves has' k (ExceptT.bindCont f (a.run k).1 (a.run k).2)
  generalize a.run k = r at hfirst ⊢
  obtain ⟨x | x, l⟩ := r
  · exact ⟨hfirst.extends', hfirst.closed, fun _ hy => by cases hy⟩
  · have hrest := hf l x (hk.trans hfirst.extends') (hfirst.made x rfl) l (.refl l) hfirst.closed
    exact ⟨hfirst.extends'.trans hrest.extends', hrest.closed, hrest.made⟩

/-- What comes first gives nothing that matters. -/
theorem Makes.after {a : Act ε α} {f : α → Act ε β} (ha : Makes h (fun _ _ => True) a)
    (hf : ∀ k x, h.Extends k → Makes k has' (f x)) : Makes h has' (a >>= f) :=
  ha.bind fun k x hk _ => hf k x hk

/-- What is done unless something is wrong. -/
theorem makes_unless {c : Prop} [Decidable c] {e : ε} {f : Unit → Act ε α} (hf : Makes h has (f ())) :
    Makes h has (if c then throw e >>= f else f ()) := by
  split
  · exact makes_throw e
  · exact hf

theorem Makes.adapt {a : Act ε α} (ha : Makes h has a) (f : ε → δ) : Makes h has (ExceptT.adapt f a : Act δ α) := by
  intro k hk hc
  have hfirst := ha k hk hc
  show Leaves has k ((a.run k).1.mapError f, (a.run k).2)
  refine ⟨hfirst.extends', hfirst.closed, fun x hx => hfirst.made x ?_⟩
  generalize (a.run k).1 = r at hx ⊢
  cases r with
  | error e => cases hx
  | ok y => cases hx; rfl

end Act

open Act

variable {h : Heap} {a b : Value}

/-! ## Operators -/

namespace Operator

theorem arithmetic_makes {ints : Int → Int → Act Trouble Value} {floats : Float → Float → Act Trouble Value}
    (hi : ∀ n m, Makes h Heap.Has (ints n m)) (hf : ∀ k x y, h.Extends k → Makes k Heap.Has (floats x y))
    (a b : Value) : Makes h Heap.Has (arithmetic ints floats a b) := by
  unfold arithmetic
  split
  · split
    · exact hi _ _
    · split
      · exact (makes_some _).after fun k x hk => (makes_some _).after fun l y hl => hf l x y (hk.trans hl)
      · exact makes_throw _
  · exact makes_throw _

theorem add_makes (a b : Value) : Makes h Heap.Has (add a b) := by
  unfold add
  split
  · exact makes_str _
  · refine makes_get.bind fun k g _ hg => ?_
    obtain ⟨rfl, hclosed⟩ := hg
    split
    · rename_i xs ys hxs hys
      exact makes_alloc fun v hv => (List.mem_append.mp hv).elim (hclosed.items hxs v) (hclosed.items hys v)
    · exact makes_throw _
  · exact arithmetic_makes (fun _ _ => makes_int _) (fun _ _ _ _ => makes_float _) _ _

theorem sub_makes (a b : Value) : Makes h Heap.Has (sub a b) :=
  arithmetic_makes (fun _ _ => makes_int _) (fun _ _ _ _ => makes_float _) a b

theorem mem_repeatList {xs : List Value} {n : Nat} {v : Value} (hv : v ∈ repeatList xs n) : v ∈ xs := by
  unfold repeatList at hv
  split at hv
  · cases hv
  · obtain ⟨ys, hys, hv⟩ := List.mem_flatten.mp hv
    rwa [(List.mem_replicate.mp hys).2] at hv

theorem repeated_makes (v : Value) (n : Int) : Makes h Heap.Has (repeated v n) := by
  unfold repeated
  split
  · exact (makes_some _).after fun k n _ => makes_unless (makes_str _)
  · refine makes_get.bind fun k g _ hg => ?_
    obtain ⟨rfl, hclosed⟩ := hg
    split
    · rename_i xs hxs
      exact (makes_some _).after fun l n hl => makes_alloc fun v hv =>
        (hclosed.items hxs v (mem_repeatList hv)).extends hl
    · exact makes_throw _
  · exact makes_throw _

theorem mul_makes (a b : Value) : Makes h Heap.Has (mul a b) := by
  unfold mul
  dsimp only
  split
  · exact repeated_makes _ _
  · exact repeated_makes _ _
  · exact arithmetic_makes (fun _ _ => makes_int _) (fun _ _ _ _ => makes_float _) _ _

theorem div_makes (a b : Value) : Makes h Heap.Has (div a b) := by
  refine arithmetic_makes (fun n m => ?_) (fun _ x y _ => ?_) a b
  · split
    · exact makes_throw _
    · split
      · exact makes_float _
      · exact makes_throw _
  · split
    · exact makes_throw _
    · exact makes_float _

theorem mod_makes (a b : Value) : Makes h Heap.Has (mod a b) := by
  unfold mod
  split
  · exact (makes_any _).after fun _ t _ => makes_str t
  · refine arithmetic_makes (fun n m => ?_) (fun _ x y _ => ?_) _ _
    · split
      · exact makes_throw _
      · exact makes_int _
    · split
      · exact makes_throw _
      · exact makes_float _

end Operator

theorem BinaryOp.apply_makes (op : BinaryOp) (a b : Value) : Makes h Heap.Has (op.apply a b) := by
  unfold BinaryOp.apply
  cases op with
  | add => exact Operator.add_makes a b
  | sub => exact Operator.sub_makes a b
  | mul => exact Operator.mul_makes a b
  | div => exact Operator.div_makes a b
  | mod => exact Operator.mod_makes a b
  | eq | ne | order => exact (makes_any _).after fun _ x _ => makes_bool _

/-! ## Functions -/

namespace Builtin

theorem toFloat_makes {v : Value} (hv : h.Has v) : Makes h Heap.Has (toFloat v) := by
  unfold toFloat
  split
  · split
    · exact makes_float _
    · exact makes_throw _
  · exact makes_value trivial
  · exact makes_value hv
  · split
    · exact (makes_some _).after fun _ x _ => makes_float x
    · exact makes_throw _
  · exact makes_get.bind fun _ _ _ _ => makes_throw _

theorem absolute_makes (v : Value) : Makes h Heap.Has (absolute v) := by
  unfold absolute
  split
  · exact makes_float _
  · exact makes_float _
  · split
    · exact makes_int _
    · exact makes_throw _
  · exact makes_get.bind fun _ _ _ _ => makes_throw _

theorem members_has {k : Heap} (hk : k.Closed) {v : Value} {vs : List Value} (hm : members k v = .ok vs) :
    ∀ w ∈ vs, k.Has w := by
  unfold members at hm
  split at hm
  · cases hm
    intro w hw
    obtain ⟨c, -, rfl⟩ := List.mem_map.mp hw
    trivial
  · cases hm
  · split at hm
    · rename_i xs hxs
      cases hm
      exact hk.items hxs
    · rename_i es hes
      cases hm
      intro w hw
      obtain ⟨e, he, rfl⟩ := List.mem_map.mp hw
      exact (hk.entries hes e he).1

theorem extreme_mem {k : Heap} {op : OrderOp} {best v : Value} {vs : List Value} (he : extreme k op best vs = .ok v) :
    v ∈ best :: vs := by
  induction vs generalizing best with
  | nil =>
    cases he
    exact List.mem_singleton_self _
  | cons w vs ih =>
    unfold extreme at he
    cases ho : k.order op w best with
    | error t =>
      rw [ho] at he
      cases he
    | ok beyond =>
      rw [ho] at he
      rcases List.mem_cons.mp (ih he) with hv | hv
      · cases beyond with
        | true => exact hv ▸ List.mem_cons_of_mem _ List.mem_cons_self
        | false => exact hv ▸ List.mem_cons_self
      · exact List.mem_cons_of_mem _ (List.mem_cons_of_mem _ hv)

theorem extremeOf_has {k : Heap} (hk : k.Closed) {f : Builtin} {op : OrderOp} {args : List Value}
    (ha : ∀ v ∈ args, k.Has v) {v : Value} (he : extremeOf k f op args = .ok v) : k.Has v := by
  unfold extremeOf at he
  cases args with
  | nil => cases he
  | cons w ws =>
    cases ws with
    | nil =>
      dsimp only at he
      cases hm : members k w with
      | error t =>
        rw [hm] at he
        cases he
      | ok vs =>
        rw [hm] at he
        cases vs with
        | nil => cases he
        | cons first rest => exact members_has hk hm v (extreme_mem he)
    | cons x ws => exact ha v (extreme_mem he)

theorem rounded_makes (v places : Value) : Makes h Heap.Has (rounded v places) := by
  unfold rounded
  refine makes_get.bind fun _ _ _ _ => ?_
  split
  · exact makes_throw _
  · split
    · exact makes_unless ((makes_some _).after fun _ n _ => makes_int n)
    · refine makes_unless ((makes_some _).after fun _ p _ => ?_)
      split
      · exact (makes_some _).after fun _ x _ => makes_float x
      · exact makes_float _
      · exact makes_int _

theorem cased_makes (change : String → String) (args : List Value) : Makes h Heap.Has (cased change args) :=
  (makes_some _).after fun _ _ _ => (makes_any _).after fun _ _ _ => makes_str _

theorem apply_makes (f : Builtin) {args : List Value} (ha : ∀ v ∈ args, h.Has v) : Makes h Heap.Has (f.apply args) := by
  unfold Builtin.apply
  cases f with
  | len => exact (makes_some _).after fun _ v _ => (makes_any _).after fun _ x _ => makes_int _
  | str => exact (makes_some _).after fun _ v _ => (makes_any _).after fun _ x _ => makes_str _
  | int =>
    dsimp only
    split
    · exact makes_int _
    · exact (makes_any _).after fun _ n _ => makes_int _
    · exact (makes_any _).after fun _ n _ => makes_int _
    · exact makes_throw _
  | float =>
    dsimp only
    split
    · exact makes_float _
    · exact toFloat_makes (ha _ (List.mem_singleton_self _))
    · exact makes_throw _
  | bool =>
    dsimp only
    split
    · exact makes_bool _
    · exact makes_get.bind fun _ _ _ _ => makes_bool _
    · exact makes_throw _
  | abs => exact (makes_some _).after fun _ v _ => absolute_makes v
  | min | max =>
    exact makes_look fun k v hk hc he => extremeOf_has hc (fun w hw => (ha w hw).extends hk) he
  | round =>
    dsimp only
    split
    · exact makes_throw _
    · exact rounded_makes _ _
    · exact rounded_makes _ _
    · exact makes_throw _
  | lower | upper => exact cased_makes _ args
  | contains =>
    dsimp only
    split
    · exact makes_throw _
    · exact makes_throw _
    · exact (makes_any _).after fun _ x _ => makes_bool _
    · exact makes_throw _

end Builtin

/-! ## Expressions -/

namespace Script

variable {α : Type}

theorem lift_makes {has : Heap → α → Prop} {a : Act Trouble α} (ha : Makes h has a) (name : Trouble → Fault) :
    Makes h has (lift name a) := ha.adapt name

theorem operate_makes (op : BinaryOp) (a b : Value) : Makes h Heap.Has (operate op a b) :=
  makes_get.bind fun _ _ _ _ => lift_makes (op.apply_makes a b) _

theorem sign_makes (op : UnaryOp) {v : Value} (hv : h.Has v) : Makes h Heap.Has (sign op v) := by
  have hrefuse : Makes h Heap.Has (do throw (.run (.unaryOperand op.text ((← get).kind v))) : Act Fault Value) :=
    makes_get.bind fun _ _ _ _ => makes_throw _
  unfold sign
  cases op with
  | not => exact makes_get.bind fun _ _ _ _ => makes_bool _
  | neg =>
    dsimp only
    split
    · exact makes_float _
    · exact makes_float _
    · split
      · exact makes_int _
      · exact hrefuse
    · exact hrefuse
  | pos =>
    dsimp only
    split
    · exact makes_value trivial
    · exact makes_value hv
    · split
      · exact makes_int _
      · exact hrefuse
    · exact hrefuse

theorem outOfRange_makes {has : Heap → α → Prop} (i : Int) : Makes h has (outOfRange i : Act Fault α) := by
  unfold outOfRange
  split
  · exact makes_throw _
  · exact makes_throw _

theorem indexOf_makes (v : Value) : Makes h (fun _ _ => True) (indexOf v) := by
  unfold indexOf
  split
  · exact makes_pure fun _ _ => trivial
  · exact makes_get.bind fun _ _ _ _ => makes_throw _

theorem has_lookup {k : Heap} {es : List (Scalar × Value)} (hes : ∀ e ∈ es, k.Has (.scalar e.1) ∧ k.Has e.2)
    {key : Scalar} {v : Value} (hl : lookupKey es key = some v) : k.Has v := by
  obtain ⟨e, he, rfl⟩ := List.mem_map.mp (Heap.lookupKey_mem hl)
  exact (hes e he).2

theorem readProperty_makes (container : Value) (name : String) : Makes h Heap.Has (readProperty container name) := by
  unfold readProperty
  refine makes_get.bind fun k g _ hg => ?_
  obtain ⟨rfl, hclosed⟩ := hg
  split
  · split
    · rename_i es hes
      split
      · rename_i v hv
        exact makes_value (has_lookup (hclosed.entries hes) hv)
      · exact makes_throw _
    · exact makes_throw _
  · exact makes_throw _

theorem readIndex_makes (container key : Value) : Makes h Heap.Has (readIndex container key) := by
  unfold readIndex
  refine makes_get.bind fun k g _ hg => ?_
  obtain ⟨rfl, hclosed⟩ := hg
  split
  · split
    · rename_i es hes
      split
      · split
        · rename_i v hv
          exact makes_value (has_lookup (hclosed.entries hes) hv)
        · split
          · exact makes_throw _
          · exact makes_throw _
      · exact makes_throw _
    · rename_i xs hxs
      refine (indexOf_makes key).after fun l i hl => ?_
      split
      · rename_i v hv
        obtain ⟨n, -, hn⟩ := Option.bind_eq_some_iff.mp hv
        exact makes_value ((hclosed.items hxs v (List.mem_of_getElem? hn)).extends hl)
      · exact outOfRange_makes i
  · refine (indexOf_makes key).after fun l i hl => ?_
    dsimp only
    split
    · exact makes_str _
    · exact outOfRange_makes i
  · exact makes_throw _

theorem scalarKey_makes {v : Value} (hv : h.Has v) : Makes h (fun k s => k.Has (.scalar s)) (scalarKey v) := by
  unfold scalarKey
  split
  · exact makes_pure fun _ hk => hv.extends hk
  · exact makes_get.bind fun _ _ _ _ => makes_throw _

theorem has_assignKey {k : Heap} {es : List (Scalar × Value)} (hes : ∀ e ∈ es, k.Has (.scalar e.1) ∧ k.Has e.2)
    {key : Scalar} (hkey : k.Has (.scalar key)) {v : Value} (hv : k.Has v) :
    ∀ e ∈ assignKey es key v, k.Has (.scalar e.1) ∧ k.Has e.2 := by
  induction es with
  | nil => exact List.forall_mem_singleton.mpr ⟨hkey, hv⟩
  | cons e es ih =>
    obtain ⟨hfirst, hrest⟩ := List.forall_mem_cons.mp hes
    rw [assignKey]
    split
    · exact List.forall_mem_cons.mpr ⟨⟨hfirst.1, hv⟩, hrest⟩
    · exact List.forall_mem_cons.mpr ⟨hfirst, ih hrest⟩

/-- All names that are bound stand for what has been made. -/
def Bound (h : Heap) (env : Env) : Prop := ∀ n v, env.get? n = some v → h.Has v

theorem bound_of_all {env : Env} (he : ∀ b ∈ env, h.Has b.2) : Bound h env := by
  intro n v hn
  induction env with
  | nil => cases hn
  | cons b env ih =>
    obtain ⟨hb, hrest⟩ := List.forall_mem_cons.mp he
    unfold Env.get? at hn
    rw [List.lookup_cons] at hn
    split at hn
    · cases hn
      exact hb
    · exact ih hrest hn

theorem Bound.extends {env : Env} {k : Heap} (hb : Bound h env) (hk : h.Extends k) : Bound k env :=
  fun n v hn => (hb n v hn).extends hk

mutual

/-- Induction on the expression. The heap grows from operand to operand. -/
theorem eval_makes {env : Env} (h : Heap) : ∀ e : Expr, Bound h env → Made h e.leaves → Makes h Heap.Has (eval env e)
  | .literal s, _, hl => makes_value (hl s (List.mem_singleton_self _))
  | .name n, hb, _ => by
    unfold eval
    split
    · rename_i v hv
      exact makes_value (hb n v hv)
    · exact makes_throw _
  | .member obj n, hb, hl => by
    unfold eval
    exact (eval_makes h obj hb hl).bind fun _ c _ _ => readProperty_makes c n
  | .index obj key, hb, hl => by
    unfold eval
    exact (eval_makes h obj hb hl.left).bind fun k c hk _ =>
      (eval_makes k key (hb.extends hk) (hl.extends hk).right).bind fun _ i _ _ => readIndex_makes c i
  | .call n args, hb, hl => by
    unfold eval
    split
    · exact makes_throw _
    · rename_i f _
      exact (evalAll_makes h args hb hl).bind fun _ vs _ hvs => lift_makes (f.apply_makes hvs) _
  | .list xs, hb, hl => by
    unfold eval
    exact (evalAll_makes h xs hb hl).bind fun _ vs _ hvs => makes_alloc hvs
  | .object ps, hb, hl => by
    unfold eval
    exact (evalPairs_makes h ps hb hl fun _ he => absurd he List.not_mem_nil).bind fun _ es _ hes => makes_alloc hes
  | .unary op e, hb, hl => by
    unfold eval
    exact (eval_makes h e hb hl).bind fun _ v _ hv => sign_makes op hv
  | .binary op l r, hb, hl => by
    unfold eval
    exact (eval_makes h l hb hl.left).bind fun k a hk _ =>
      (eval_makes k r (hb.extends hk) (hl.extends hk).right).bind fun _ b _ _ => operate_makes op a b
  | .logical op l r, hb, hl => by
    unfold eval
    refine (eval_makes h l hb hl.left).bind fun k a hk ha => makes_get.bind fun k' g hk' _ => ?_
    split
    · exact makes_value (ha.extends hk')
    · exact eval_makes k' r (hb.extends (hk.trans hk')) (hl.extends (hk.trans hk')).right

theorem evalAll_makes {env : Env} (h : Heap) : ∀ es : List Expr, Bound h env → Made h (Expr.leavesAll es) →
    Makes h (fun k vs => ∀ v ∈ vs, k.Has v) (evalAll env es)
  | [], _, _ => makes_pure fun _ _ _ hv => absurd hv List.not_mem_nil
  | e :: es, hb, hl => by
    unfold evalAll
    refine (eval_makes h e hb hl.left).bind fun k v hk hv =>
      (evalAll_makes k es (hb.extends hk) (hl.extends hk).right).bind fun k' vs hk' hvs => makes_pure fun k'' hk'' => ?_
    exact List.forall_mem_cons.mpr ⟨hv.extends (hk'.trans hk''), fun w hw => (hvs w hw).extends hk''⟩

theorem evalPairs_makes {env : Env} (h : Heap) {entries : List (Scalar × Value)} : ∀ ps : List (Expr × Expr),
    Bound h env → Made h (Expr.leavesPairs ps) → (∀ e ∈ entries, h.Has (.scalar e.1) ∧ h.Has e.2) →
      Makes h (fun k es => ∀ e ∈ es, k.Has (.scalar e.1) ∧ k.Has e.2) (evalPairs env entries ps)
  | [], _, _, he => makes_pure fun _ hk e hmem => ⟨(he e hmem).1.extends hk, (he e hmem).2.extends hk⟩
  | (ke, ve) :: ps, hb, hl, he => by
    unfold evalPairs
    refine (eval_makes h ke hb hl.left).bind fun k key hk hkey => (scalarKey_makes hkey).bind fun k' s hk' hs =>
      (eval_makes k' ve (hb.extends (hk.trans hk')) (hl.extends (hk.trans hk')).right.left).bind fun k'' v hk'' hv => ?_
    have hall : h.Extends k'' := hk.trans (hk'.trans hk'')
    exact evalPairs_makes k'' ps (hb.extends hall) (hl.extends hall).right.right (has_assignKey
      (fun e hmem => ⟨(he e hmem).1.extends hall, (he e hmem).2.extends hall⟩) (hs.extends hk'') hv)

end

end Script

/-! ## Scripts -/

/-- What stands at the leaves of a statement. -/
def Statement.leaves : Statement → List Leaf
  | .expr e => e.leaves
  | .assign target _ value => target.expr.leaves ++ value.leaves

namespace Script

theorem Memory.Closed.bound {m : Memory} (hm : m.Closed) : Bound m.heap m.env := hm.vars

theorem Memory.Closed.containers {m : Memory} (hm : m.Closed) : m.heap.Closed := by
  intro r
  cases hr : m.heap.cell r with
  | list xs => exact hm.items r xs hr
  | object es => exact hm.entries r es hr

theorem memory_closed {m : Memory} (hb : Bound m.heap m.env) (hh : m.heap.Closed) : m.Closed :=
  ⟨hb, fun _ _ => hh.items, fun _ _ => hh.entries⟩

theorem Bound.older {h k : Heap} {env : Env} (hb : Bound h env) (hk : h.Older k) : Bound k env :=
  fun n v hn => hk (hb n v hn)

theorem Made.older {h k : Heap} {ls : List Leaf} (hl : Made h ls) (hk : h.Older k) : Made k ls :=
  fun s hs => hk (hl s hs)

namespace Exec

variable {α β : Type} {h : Heap} {has : Heap → α → Prop} {has' : Heap → β → Prop}

/-- How a computation leaves a memory. -/
structure Leaves (has : Heap → α → Prop) (m : Memory) (r : Except Fault α × Memory) : Prop where
  older : m.heap.Older r.2.heap
  closed : r.2.Closed
  made : ∀ x, r.1 = .ok x → has r.2.heap x

/-- On every closed memory that has what the heap has. -/
def Makes (h : Heap) (has : Heap → α → Prop) (a : Exec α) : Prop :=
  ∀ m : Memory, h.Older m.heap → m.Closed → Leaves has m (a.run m)

theorem makes_pure {x : α} (hx : ∀ k, h.Older k → has k x) : Makes h has (pure x) :=
  fun m hk hm => ⟨id, hm, fun y hy => by
    cases hy
    exact hx m.heap hk⟩

theorem makes_throw (f : Fault) : Makes h has (throw f) := fun _ _ hm => ⟨id, hm, fun _ hy => by cases hy⟩

theorem makes_modify {f : Memory → Memory}
    (hf : ∀ m : Memory, h.Older m.heap → m.Closed → m.heap.Older (f m).heap ∧ (f m).Closed) :
    Makes h (fun _ _ => True) (modify f) :=
  fun m hk hm => ⟨(hf m hk hm).1, (hf m hk hm).2, fun _ _ => trivial⟩

theorem makes_onHeap {f : Env → Act Fault α} (hf : ∀ env k, h.Older k → Bound k env → Act.Makes k has (f env)) :
    Makes h has (onHeap f) := by
  intro m hk hm
  have hleaves := hf m.env m.heap hk hm.bound m.heap (.refl m.heap) hm.containers
  exact ⟨hleaves.extends'.older, memory_closed (hm.bound.extends hleaves.extends') hleaves.closed, hleaves.made⟩

theorem Makes.bind {a : Exec α} {f : α → Exec β} (ha : Makes h has a)
    (hf : ∀ k x, h.Older k → has k x → Makes k has' (f x)) : Makes h has' (a >>= f) := by
  intro m hk hm
  have hfirst := ha m hk hm
  rw [bind_run]
  generalize a.run m = r at hfirst ⊢
  obtain ⟨x | x, n⟩ := r
  · exact ⟨hfirst.older, hfirst.closed, fun _ hy => by cases hy⟩
  · have hrest := hf n.heap x (fun hv => hfirst.older (hk hv)) (hfirst.made x rfl) n id hfirst.closed
    exact ⟨fun hv => hrest.older (hfirst.older hv), hrest.closed, hrest.made⟩

theorem makes_get : Makes h (fun k m => m.heap = k ∧ k.Closed) (get : Exec Memory) :=
  fun m _ hm => ⟨id, hm, fun n hn => by
    cases hn
    exact ⟨rfl, hm.containers⟩⟩

end Exec

open Exec

variable {h : Heap}

theorem evaluation_makes {e : Expr} (hl : Made h e.leaves) : Exec.Makes h Heap.Has (onHeap (eval · e)) :=
  makes_onHeap fun _ k hk hb => eval_makes k e hb (hl.older hk)

theorem write_makes (r : Ref) {c : Cell} (hc : h.HasAll c) : Exec.Makes h (fun _ _ => True) (write r c) :=
  makes_modify fun m hk hm =>
    have holder : m.heap.Older (m.heap.write r c) := m.heap.older_write r c
    ⟨holder, memory_closed (hm.bound.older holder) (hm.containers.write r (hc.older hk))⟩

theorem bind_makes (readonly : List String) (name : String) {v : Value} (hv : h.Has v) :
    Exec.Makes h (fun _ _ => True) (bind readonly name v) := by
  unfold bind
  split
  · exact makes_throw _
  · refine makes_modify fun m hk hm => ⟨id, memory_closed (fun x w hx => ?_) hm.containers⟩
    rw [Env.get?_set] at hx
    split at hx
    · cases hx
      exact hk hv
    · exact hm.vars x w hx

theorem storeProperty_makes (container : Value) (name : String) {v : Value} (hv : h.Has v) :
    Exec.Makes h (fun _ _ => True) (storeProperty container name v) := by
  unfold storeProperty
  refine makes_get.bind fun k m hk hm => ?_
  obtain ⟨rfl, hclosed⟩ := hm
  dsimp only
  split
  · split
    · rename_i es hes
      have hname : Heap.Has m.heap (.scalar (.str name)) := trivial
      exact write_makes _ (has_assignKey (hclosed.entries hes) hname (hk hv))
    · exact makes_throw _
  · exact makes_throw _

theorem storeIndex_makes (container : Value) {key v : Value} (hkey : h.Has key) (hv : h.Has v) :
    Exec.Makes h (fun _ _ => True) (storeIndex container key v) := by
  unfold storeIndex
  refine makes_get.bind fun k m hk hm => ?_
  obtain ⟨rfl, hclosed⟩ := hm
  dsimp only
  split
  · split
    · rename_i es hes
      split
      · exact write_makes _ (has_assignKey (hclosed.entries hes) (hk hkey) (hk hv))
      · exact makes_throw _
    · rename_i xs hxs
      refine (makes_onHeap fun _ _ _ _ => indexOf_makes key).bind fun l i hl _ => ?_
      split
      · refine write_makes _ fun w hw => hl ?_
        exact (List.mem_or_eq_of_mem_set hw).elim (hclosed.items hxs w) fun heq => heq ▸ hk hv
      · exact makes_onHeap fun _ _ _ _ => outOfRange_makes i
  · exact makes_throw _

theorem store_makes (readonly : List String) {target : Target} (hl : Made h target.expr.leaves) {v : Value}
    (hv : h.Has v) : Exec.Makes h (fun _ _ => True) (store readonly target v) := by
  unfold store
  cases target with
  | name n => exact bind_makes readonly n hv
  | member obj n =>
    have hl : Made h obj.leaves := hl
    exact (evaluation_makes hl).bind fun _ c hk _ => storeProperty_makes c n (hk hv)
  | index obj key =>
    have hl : Made h (obj.leaves ++ key.leaves) := hl
    exact (evaluation_makes hl.left).bind fun _ c hk _ =>
      (evaluation_makes (hl.right.older hk)).bind fun _ i hk' hi => storeIndex_makes c hi (hk' (hk hv))

theorem assigned_makes {target : Target} (op : AssignOp) {value : Expr} (ht : Made h target.expr.leaves)
    (hv : Made h value.leaves) : Exec.Makes h Heap.Has (assigned target op value) := by
  unfold assigned
  refine (evaluation_makes hv).bind fun k v hk hv => ?_
  split
  · exact makes_pure fun _ hl => hl hv
  · exact (evaluation_makes (ht.older hk)).bind fun _ old _ _ => makes_onHeap fun _ _ _ _ => operate_makes _ old v

theorem execStatement_makes (readonly : List String) {s : Statement} (hl : Made h s.leaves) :
    Exec.Makes h (fun _ _ => True) (execStatement readonly s) := by
  cases s with
  | expr e =>
    unfold execStatement
    exact (evaluation_makes hl).bind fun _ _ _ _ => makes_pure fun _ _ => trivial
  | assign target op value =>
    have hl : Made h (target.expr.leaves ++ value.leaves) := hl
    unfold execStatement
    exact (assigned_makes op hl.left hl.right).bind fun _ _ hk hv => store_makes readonly (hl.left.older hk) hv

/-- A script leaves a closed memory closed, however it ends. -/
theorem exec_closed (readonly : List String) {ss : List Statement} {m : Memory} (hm : m.Closed)
    (hl : ∀ s ∈ ss, Made m.heap s.leaves) : ((exec readonly ss).run m).2.Closed := by
  have hmakes : ∀ h, (∀ s ∈ ss, Made h s.leaves) → Exec.Makes h (fun _ _ => True) (exec readonly ss) := by
    clear hl
    induction ss with
    | nil => exact fun _ _ => makes_pure fun _ _ => trivial
    | cons s ss ih =>
      intro h hl
      obtain ⟨hs, hss⟩ := List.forall_mem_cons.mp hl
      unfold exec
      exact (execStatement_makes readonly hs).bind fun k _ hk _ => ih k fun t ht => (hss t ht).older hk
  exact (hmakes m.heap hl m id hm).closed

end Script

end StepFlow
