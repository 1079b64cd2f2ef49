/-
  StepFlow.Proofs.Script.Targets — what an assignment may assign to.

  The rule for targets is a name with properties and indexes after it (`Place`). Statements are
  not read by that rule. A target is read as an expression, and then its outermost node must be a
  name, a property or an index; what these are taken of in the end (`Expr.root`) is not looked at.

  Proved, for every text, read-only names and memory, which may be shared and cyclic:
  (1) `Derives.place`, `Place.root`: an expression that was read follows the rule if its root is a
      name, and only then.
  (2) `rooted_gives`: such an expression stands for what its root reaches.
  (3) `passing_gives`: a literal, an operation, a list or an object never stands for a container
      that there was before.
  (4) `assignments_of_a_script`: what is read as a target, and where an assignment to it ends up.
      One that follows the rule changes a variable, or a container that the variable reaches; one
      that does not may be lost (`a_list_of_its_own_is_assigned_to`).
-/

import StepFlow.Proofs.Script.Footprint
import StepFlow.Proofs.Script.Making

namespace StepFlow

/-! ## The rule for targets -/

/-- What the properties and indexes of an expression are taken of. -/
def Expr.root : Expr → Expr
  | .member obj _ | .index obj _ => obj.root
  | e => e

namespace Script

/-- A name with properties and indexes after it. -/
inductive Place : List Lexeme → Expr → Prop
  | name (n : String) : Place [.ident n] (.name n)
  | member {e : Expr} {w : List Lexeme} {x : Lexeme} {n : String} :
      Place w e → Names x n → Place (w ++ [.symbol .dot, x]) (.member e n)
  | index {e k : Expr} {u v : List Lexeme} : Place u e → Derives (.expr .disjunction k) v →
      Place (u ++ .symbol .openBracket :: (v ++ [.symbol .closeBracket])) (.index e k)

theorem Place.derives {e : Expr} {w : List Lexeme} (h : Place w e) : Derives (.expr .access e) w := by
  induction h with
  | name n => exact .name n
  | member _ hx ih => exact .member ih hx
  | index _ hk ih => exact .index ih hk

theorem Place.root {e : Expr} {w : List Lexeme} (h : Place w e) : ∃ n, e.root = .name n := by
  induction h with
  | name n => exact ⟨n, rfl⟩
  | member _ _ ih => exact ih
  | index _ _ ih => exact ih

/-- The rule has no parentheses, so what was read may have been written in another way. -/
theorem Derives.place {l : Level} {e : Expr} {w : List Lexeme} (h : Derives (.expr l e) w) {n : String}
    (hn : e.root = .name n) : ∃ v, Place v e := by
  generalize hp : Phrase.expr l e = p at h
  induction h generalizing l e with
  | tighter _ _ ih | group _ ih =>
    cases hp
    exact ih hn rfl
  | joined hj _ _ _ _ =>
    cases hp
    cases hj <;> cases hn
  | signed hs _ _ =>
    cases hp
    cases hs <;> cases hn
  | @member obj _ _ _ _ hx ih =>
    cases hp
    obtain ⟨v, hv⟩ := ih (show obj.root = .name n from hn) rfl
    exact ⟨_, .member hv hx⟩
  | @index obj _ _ _ _ hk ih _ =>
    cases hp
    obtain ⟨v, hv⟩ := ih (show obj.root = .name n from hn) rfl
    exact ⟨_, .index hv hk⟩
  | name x =>
    cases hp
    exact ⟨_, .name x⟩
  | _ => cases hp <;> cases hn

end Script

/-! ## What a computation gives -/

namespace Act

variable {ε δ α β : Type} {h : Heap} {P : α → Prop} {Q : β → Prop}

/-- On every heap that keeps the first one, the computation keeps it too, and what it gives is so. -/
def Gives (h : Heap) (P : α → Prop) (a : Act ε α) : Prop :=
  ∀ k, h.Keeps k → h.Keeps (a.run k).2 ∧ ∀ x, (a.run k).1 = .ok x → P x

theorem Spares.gives {a : Act ε α} (ha : Spares a) : Gives h (fun _ => True) a :=
  fun k hk => ⟨hk.trans (ha k), fun _ _ => trivial⟩

theorem gives_pure {x : α} (hx : P x) : Gives h P (pure x : Act ε α) :=
  fun k hk => ⟨hk, fun y hy => by
    cases hy
    exact hx⟩

theorem gives_throw (e : ε) : Gives h P (throw e : Act ε α) := fun k hk => ⟨hk, fun y hy => by cases hy⟩

theorem gives_get : Gives h h.Keeps (get : Act ε Heap) :=
  fun k hk => ⟨hk, fun y hy => by
    cases hy
    exact hk⟩

theorem Gives.bind {a : Act ε α} {f : α → Act ε β} (ha : Gives h P a) (hf : ∀ x, P x → Gives h Q (f x)) :
    Gives h Q (a >>= f) := by
  intro k hk
  have hfirst := ha k hk
  show h.Keeps (ExceptT.bindCont f (a.run k).1 (a.run k).2).2 ∧ _
  change _ ∧ ∀ y, (ExceptT.bindCont f (a.run k).1 (a.run k).2).1 = .ok y → Q y
  generalize a.run k = r at hfirst ⊢
  obtain ⟨x | x, l⟩ := r
  · exact ⟨hfirst.1, fun _ hy => by cases hy⟩
  · exact hf x (hfirst.2 x rfl) l hfirst.1

/-- What comes first gives nothing that matters. -/
theorem Spares.before {a : Act ε α} {f : α → Act ε β} (ha : Spares a) (hf : ∀ x, Gives h Q (f x)) :
    Gives h Q (a >>= f) :=
  ha.gives.bind fun x _ => hf x

theorem Gives.adapt {a : Act ε α} (ha : Gives h P a) (f : ε → δ) : Gives h P (ExceptT.adapt f a : Act δ α) := by
  intro k hk
  have hfirst := ha k hk
  show h.Keeps (a.run k).2 ∧ ∀ x, (a.run k).1.mapError f = .ok x → P x
  generalize a.run k = r at hfirst ⊢
  obtain ⟨x | x, l⟩ := r
  · exact ⟨hfirst.1, fun _ hy => by cases hy⟩
  · refine ⟨hfirst.1, fun y hy => ?_⟩
    cases hy
    exact hfirst.2 x rfl

end Act

/-! ## Values that are no container of a heap -/

/-- The value is no container that the heap has. -/
def Heap.Lacks (h : Heap) (v : Value) : Prop := ∀ r ∈ v.refs, h.cells.size ≤ r

open Act

section Operators

variable {ε : Type} {h : Heap}

theorem gives_scalar (s : Scalar) : Gives h h.Lacks (pure (.scalar s) : Act ε Value) :=
  gives_pure fun _ hr => by cases hr

theorem gives_alloc (c : Cell) : Gives h h.Lacks (alloc c : Act ε Value) :=
  fun k hk => ⟨hk.trans (.alloc k c), fun v hv r hr => by
    cases hv
    rw [List.mem_singleton.mp hr]
    exact hk.size_le⟩

theorem Heap.refs_float (h : Heap) (x : Float) : (h.float x).1.refs = [] := by
  unfold Heap.float
  split <;> rfl

theorem gives_float (x : Float) : Gives h h.Lacks (float x : Act ε Value) :=
  fun k hk => ⟨hk.trans (.float k x), fun v hv r hr => by
    have hv : (k.float x).1 = v := Except.ok.inj hv
    rw [← hv, k.refs_float x] at hr
    cases hr⟩

namespace Operator

theorem arithmetic_gives {ints : Int → Int → Act Trouble Value} {floats : Float → Float → Act Trouble Value}
    (hi : ∀ n m, Gives h h.Lacks (ints n m)) (hf : ∀ x y, Gives h h.Lacks (floats x y)) (a b : Value) :
    Gives h h.Lacks (arithmetic ints floats a b) := by
  unfold arithmetic
  split
  · split
    · exact hi _ _
    · split
      · exact (spares_ofExcept _).before fun x => (spares_ofExcept _).before fun y => hf x y
      · exact gives_throw _
  · exact gives_throw _

theorem add_gives (a b : Value) : Gives h h.Lacks (add a b) := by
  unfold add
  split
  · exact gives_scalar _
  · refine spares_get.before fun k => ?_
    split
    · exact gives_alloc _
    · exact gives_throw _
  · exact arithmetic_gives (fun _ _ => gives_scalar _) (fun _ _ => gives_float _) _ _

theorem repeated_gives (v : Value) (n : Int) : Gives h h.Lacks (repeated v n) := by
  unfold repeated
  split
  · refine (spares_ofExcept _).before fun k => ?_
    split
    · exact (spares_throw _).before fun _ => gives_scalar _
    · exact gives_scalar _
  · refine spares_get.before fun k => ?_
    split
    · exact (spares_ofExcept _).before fun n => gives_alloc _
    · exact gives_throw _
  · exact gives_throw _

theorem mul_gives (a b : Value) : Gives h h.Lacks (mul a b) := by
  unfold mul
  dsimp only
  split
  · exact repeated_gives _ _
  · exact repeated_gives _ _
  · exact arithmetic_gives (fun _ _ => gives_scalar _) (fun _ _ => gives_float _) _ _

theorem div_gives (a b : Value) : Gives h h.Lacks (div a b) := by
  refine arithmetic_gives (fun n m => ?_) (fun x y => ?_) a b
  · split
    · exact gives_throw _
    · split
      · exact gives_float _
      · exact gives_throw _
  · split
    · exact gives_throw _
    · exact gives_float _

theorem mod_gives (a b : Value) : Gives h h.Lacks (mod a b) := by
  unfold mod
  split
  · exact (spares_look _).before fun _ => gives_scalar _
  · refine arithmetic_gives (fun n m => ?_) (fun x y => ?_) _ _
    · split
      · exact gives_throw _
      · exact gives_scalar _
    · split
      · exact gives_throw _
      · exact gives_float _

end Operator

theorem BinaryOp.apply_gives (op : BinaryOp) (a b : Value) : Gives h h.Lacks (op.apply a b) := by
  unfold BinaryOp.apply
  cases op with
  | add => exact Operator.add_gives a b
  | sub => exact Operator.arithmetic_gives (fun _ _ => gives_scalar _) (fun _ _ => gives_float _) a b
  | mul => exact Operator.mul_gives a b
  | div => exact Operator.div_gives a b
  | mod => exact Operator.mod_gives a b
  | eq | ne | order => exact (spares_look _).before fun _ => gives_scalar _

theorem Script.sign_gives (op : UnaryOp) (v : Value) : Gives h h.Lacks (sign op v) := by
  have hrefuse : Gives h h.Lacks
      (do throw (.run (.unaryOperand op.text ((← get).kind v))) : Act Fault Value) :=
    spares_get.before fun _ => gives_throw _
  unfold sign
  dsimp only
  split
  · exact spares_get.before fun _ => gives_scalar _
  · split
    · exact gives_float _
    · exact gives_float _
    · split
      · exact gives_scalar _
      · exact hrefuse
    · exact hrefuse
  · split
    · exact gives_scalar _
    · exact gives_scalar _
    · split
      · exact gives_scalar _
      · exact hrefuse
    · exact hrefuse

end Operators

/-- A literal, an operation, a list or an object. -/
inductive Expr.Passing : Expr → Prop
  | literal (s : Scalar) : Passing (.literal s)
  | list (es : List Expr) : Passing (.list es)
  | object (ps : List (Expr × Expr)) : Passing (.object ps)
  | unary (op : UnaryOp) (e : Expr) : Passing (.unary op e)
  | binary (op : BinaryOp) (l r : Expr) : Passing (.binary op l r)

namespace Script

theorem passing_gives {e : Expr} (he : e.Passing) (env : Env) (h : Heap) : Gives h h.Lacks (eval env e) := by
  unfold eval
  cases he with
  | literal s => exact gives_scalar s
  | list es => exact (evalAll_spares env es).before fun _ => gives_alloc _
  | object ps => exact (evalPairs_spares env [] ps).before fun _ => gives_alloc _
  | unary op e => exact (eval_spares env e).before fun v => sign_gives op v
  | binary op l r =>
    exact (eval_spares env l).before fun a => (eval_spares env r).before fun b =>
      spares_get.before fun _ => (op.apply_gives a b).adapt _

/-! ## Where a value has been taken from -/

/-- All that the value stands for is reached. -/
def Memory.Reaches (m : Memory) (ls : List Leaf) (v : Value) : Prop := ∀ r ∈ v.refs, m.Reached ls r

section Reaching

variable {m n : Memory} {ls : List Leaf} {r : Ref}

theorem Memory.Closed.has_refs (hm : m.Closed) (hr : q ∈ (m.heap.cell r).refs) : q < m.heap.cells.size := by
  obtain ⟨v, hv, hq⟩ := Cell.mem_refs.mp hr
  have hhas : m.heap.Has v := by
    cases hc : m.heap.cell r with
    | list xs =>
      rw [hc] at hv
      exact hm.items r xs hc v hv
    | object es =>
      rw [hc] at hv
      obtain ⟨e, he, rfl⟩ := List.mem_map.mp hv
      exact (hm.entries r es hc e he).2
  cases v with
  | scalar s => cases hq
  | ref s => rwa [List.mem_singleton.mp hq]

theorem reached_lt (hm : m.Closed) (hr : m.Reached ls r) : r < m.heap.cells.size := by
  cases hr with
  | name _ hx => exact hm.vars _ _ hx
  | member _ hq => exact hm.has_refs hq

/-- What is made later is not reached. -/
theorem reached_before (hm : m.Closed) (hk : m.Keeps n) (hr : n.Reached ls r) : m.Reached ls r := by
  induction hr with
  | name hx hv =>
    rw [hk.env] at hv
    exact .name hx hv
  | member _ hq ih =>
    rw [cell_eq_of_getElem? (hk.heap _ (reached_lt hm ih))] at hq
    exact .member ih hq

/-- A container that an expression stands for is reached by its names, or has just been made. -/
theorem eval_reached (m : Memory) {e : Expr} {v : Value} (hv : ((eval m.env e).run m.heap).1 = .ok v) :
    ∀ r ∈ v.refs, m.Reached e.leaves r ∨ m.heap.cells.size ≤ r := by
  have hends := eval_coincides _ e (reached_alike fun _ _ => rfl) m.heap m.heap
    (sameOn_matches rfl rfl (fun _ hr _ => .member hr) fun _ _ => rfl)
  generalize (eval m.env e).run m.heap = x at hends hv
  intro r hr
  cases hends with
  | intro q hg _ hxy =>
    cases hxy with
    | error f => cases hv
    | ok hrel =>
      cases hv
      cases hrel with
      | scalar _ => cases hr
      | ref hq =>
        rw [List.mem_singleton.mp hr]
        rcases hg.newRefs hq with hold | hnew
        · exact .inl hold.2
        · exact .inr hnew.1

theorem readProperty_gives (hm : m.Closed) {c : Value} (hc : m.Reaches ls c) (name : String) :
    Gives m.heap (m.Reaches ls) (readProperty c name) := by
  refine gives_get.bind fun k hk => ?_
  split
  · rename_i r
    have hr := hc r (List.mem_singleton_self r)
    rw [cell_eq_of_getElem? (hk r (reached_lt hm hr))]
    split
    · rename_i es hes
      split
      · rename_i v hv
        refine gives_pure fun q hq => .member hr ?_
        rw [hes]
        exact Cell.mem_refs.mpr ⟨v, Heap.lookupKey_mem hv, hq⟩
      · exact gives_throw _
    · exact gives_throw _
  · exact gives_throw _

theorem outOfRange_gives {α : Type} {P : α → Prop} {h : Heap} (i : Int) :
    Gives h P (outOfRange i : Act Fault α) := by
  unfold outOfRange
  split <;> exact gives_throw _

theorem readIndex_gives (hm : m.Closed) {c : Value} (hc : m.Reaches ls c) (key : Value) :
    Gives m.heap (m.Reaches ls) (readIndex c key) := by
  refine gives_get.bind fun k hk => ?_
  split
  · rename_i r
    have hr := hc r (List.mem_singleton_self r)
    rw [cell_eq_of_getElem? (hk r (reached_lt hm hr))]
    split
    · rename_i es hes
      split
      · split
        · rename_i v hv
          refine gives_pure fun q hq => .member hr ?_
          rw [hes]
          exact Cell.mem_refs.mpr ⟨v, Heap.lookupKey_mem hv, hq⟩
        · split <;> exact gives_throw _
      · exact gives_throw _
    · rename_i xs hxs
      refine (indexOf_spares key).before fun i => ?_
      split
      · rename_i v hv
        obtain ⟨j, -, hj⟩ := Option.bind_eq_some_iff.mp hv
        refine gives_pure fun q hq => .member hr ?_
        rw [hxs]
        exact Cell.mem_refs.mpr ⟨v, List.mem_of_getElem? hj, hq⟩
      · exact outOfRange_gives i
  · refine (indexOf_spares key).before fun i => ?_
    dsimp only
    split
    · exact gives_pure fun _ hq => by cases hq
    · exact outOfRange_gives i
  · exact gives_throw _

/-- An expression stands for what the variable at its root reaches; its indexes play no part. -/
theorem rooted_gives (hm : m.Closed) {x : String} :
    ∀ {e : Expr}, e.root = .name x → Gives m.heap (m.Reaches [.name x]) (eval m.env e)
  | .name n, hx => by
    cases hx
    unfold eval
    split
    · rename_i v hv
      refine gives_pure fun r hr => ?_
      cases v with
      | scalar s => cases hr
      | ref q =>
        rw [List.mem_singleton.mp hr]
        exact .name (List.mem_singleton_self _) hv
    · exact gives_throw _
  | .member obj n, hx => by
    unfold eval
    exact (rooted_gives hm (show obj.root = .name x from hx)).bind fun c hc => readProperty_gives hm hc n
  | .index obj key, hx => by
    unfold eval
    exact (rooted_gives hm (show obj.root = .name x from hx)).bind fun c hc =>
      (eval_spares m.env key).before fun k => readIndex_gives hm hc k

end Reaching

/-! ## Steps that assign -/

theorem Memory.Reached.mono {m : Memory} {ls ls' : List Leaf} (h : ls ⊆ ls') {r : Ref} (hr : m.Reached ls r) :
    m.Reached ls' r := by
  induction hr with
  | name hn hv => exact .name (h hn) hv
  | member _ hq ih => exact .member ih hq

namespace Step

/-- All that the step has changed is a variable of these names, or one entry of a container that
    they reached before. -/
inductive Lands (s : Step) (ls : List Leaf) : Memory → Prop
  | binds {x : String} {v : Value} {n : Memory} : s.statement.binds? = some x → .name x ∈ ls → s.before.Keeps n →
      Lands s ls { n with env := n.env.set x v }
  | writes {r : Ref} {v : Value} {c : Cell} {n : Memory} : s.before.Reached ls r → s.before.Keeps n →
      Cell.Reassigned v (n.heap.cell r) c → Lands s ls { n with heap := n.heap.write r c }

variable {readonly : List String} {s : Step} {target : Target} {op : AssignOp} {value obj : Expr} {r : Ref} {x : String}

theorem binds_name (hs : s.statement = .assign target op value) (hb : s.statement.binds? = some x) :
    target = .name x := by
  rw [hs] at hb
  cases target <;> cases hb
  rfl

theorem binds_part (hs : s.statement = .assign target op value) (hobj : target.container? = some obj) :
    s.statement.binds? = none := by
  rw [hs]
  cases target <;> first | rfl | cases hobj

/-- The container that is entered is evaluated after the value that is assigned. -/
theorem entered_from (hs : s.statement = .assign target op value) (hr : s.entered? = some r) :
    ∃ obj n, target.container? = some obj ∧ s.before.Keeps n ∧
      ((eval s.before.env obj).run n.heap).1 = .ok (.ref r) := by
  unfold entered? at hr
  rw [hs] at hr
  dsimp only at hr
  split at hr
  · cases hr
  rename_i obj hobj
  rw [Exec.bind_run] at hr
  rcases (assigned_quiet target op value).run_cases s.before with ⟨f, n, hv, -⟩ | ⟨v, n, hv, hk⟩
  · rw [hv] at hr
    cases hr
  rw [hv] at hr
  dsimp only at hr
  rw [onHeap_run, hk.env] at hr
  refine ⟨obj, n, hobj, hk, ?_⟩
  generalize (eval s.before.env obj).run n.heap = o at hr ⊢
  obtain ⟨f | v, k⟩ := o
  · cases hr
  cases v with
  | scalar s => cases hr
  | ref q =>
    cases hr
    rfl

theorem entered_gives {P : Value → Prop} (hs : s.statement = .assign target op value)
    (hobj : target.container? = some obj) (hg : Gives s.before.heap P (eval s.before.env obj))
    (hr : s.entered? = some r) : P (.ref r) := by
  obtain ⟨obj', n, hobj', hk, hv⟩ := entered_from hs hr
  cases hobj.symm.trans hobj'
  exact (hg n.heap hk.heap).2 _ hv

theorem Does.lands {ls : List Leaf} {o : Except Fault Unit × Memory} (h : s.Does readonly o)
    (hs : s.statement = .assign target op value) (hok : o.1 = .ok ()) (hb : ∀ x, target = .name x → .name x ∈ ls)
    (he : ∀ r, s.entered? = some r → s.before.Reached ls r) : s.Lands ls o.2 := by
  cases h with
  | fails f _ => cases hok
  | evaluates he _ => cases hs.symm.trans he
  | binds hx _ hk => exact .binds hx (hb _ (binds_name hs hx)) hk
  | writes hr hk hc => exact .writes (he _ hr) hk hc

/-- A container that has only just been made is no one's. -/
theorem Does.lost {o : Except Fault Unit × Memory} (h : s.Does readonly o)
    (hs : s.statement = .assign target op value) (hobj : target.container? = some obj)
    (he : ∀ r, s.entered? = some r → s.before.heap.cells.size ≤ r) : s.before.Keeps o.2 := by
  cases h with
  | fails f hk => exact hk
  | evaluates _ hk => exact hk
  | binds hx _ _ => cases (binds_part hs hobj).symm.trans hx
  | @writes r v c n hr hk _ =>
    have hr := he r hr
    refine ⟨hk.env, fun q hq => ?_⟩
    have hne : q ≠ r := by
      rintro rfl
      exact absurd hq (Nat.not_lt.mpr hr)
    rw [write_other c hne, hk.heap q hq]

/-- An assignment to a target that follows the rule ends up in its variable or in what that reaches. -/
theorem rooted_lands (hs : s.statement = .assign target op value) (hx : target.expr.root = .name x)
    (hm : s.before.Closed) (hok : (s.after readonly).1 = .ok ()) : s.Lands [.name x] (s.after readonly).2 := by
  refine (execStatement_does readonly s).lands hs hok (fun y hy => ?_) fun r hr => ?_
  · subst hy
    cases hx
    exact List.mem_singleton_self _
  · obtain ⟨obj, -, hobj, -, -⟩ := entered_from hs hr
    have hroot : obj.root = .name x := by cases target <;> cases hobj <;> exact hx
    exact entered_gives hs hobj (rooted_gives hm hroot) hr r (List.mem_singleton_self r)

/-- An assignment ends up in what the names of its target reach, or it is lost. -/
theorem lands_or_lost (hs : s.statement = .assign target op value) (hm : s.before.Closed)
    (hok : (s.after readonly).1 = .ok ()) :
    s.Lands target.expr.leaves (s.after readonly).2 ∨ s.before.Keeps (s.after readonly).2 := by
  have hdoes := execStatement_does readonly s
  by_cases hnew : ∃ r, s.entered? = some r ∧ s.before.heap.cells.size ≤ r
  · obtain ⟨r, hr, hnew⟩ := hnew
    obtain ⟨obj, -, hobj, -, -⟩ := entered_from hs hr
    refine .inr (hdoes.lost hs hobj fun q hq => ?_)
    cases hr.symm.trans hq
    exact hnew
  · refine .inl (hdoes.lands hs hok (fun x hx => ?_) fun r hr => ?_)
    · subst hx
      exact List.mem_singleton_self _
    · obtain ⟨obj, n, hobj, hk, hv⟩ := entered_from hs hr
      have hleaves : obj.leaves ⊆ target.expr.leaves := by
        cases target <;> cases hobj
        · exact List.Subset.refl _
        · exact List.subset_append_left _ _
      rw [← hk.env] at hv
      rcases eval_reached n hv r (List.mem_singleton_self r) with hold | hlate
      · exact (reached_before hm hk hold).mono hleaves
      · exact absurd ⟨r, hr, Nat.le_trans hk.heap.size_le hlate⟩ hnew

/-- An assignment to a part of a literal, an operation, a list or an object fails or is lost. -/
theorem passing_lost (hs : s.statement = .assign target op value) (hobj : target.container? = some obj)
    (hp : obj.Passing) : s.before.Keeps (s.after readonly).2 :=
  (execStatement_does readonly s).lost hs hobj fun r hr =>
    entered_gives hs hobj (passing_gives hp s.before.env s.before.heap) hr r (List.mem_singleton_self r)

end Step

/-! ## Assignments of a script -/

theorem Program.sentence {w : List Lexeme} {ss : List Statement} (h : Program w ss) {s : Statement} (hs : s ∈ ss) :
    ∃ before u after, w = before ++ u ++ after ∧ Sentence u s := by
  induction h with
  | nil => cases hs
  | @separator x w ss _ _ ih =>
    obtain ⟨before, u, after, rfl, hu⟩ := ih hs
    exact ⟨x :: before, u, after, rfl, hu⟩
  | @last w s' hw =>
    rw [List.mem_singleton.mp hs]
    exact ⟨[], w, [], by rw [List.nil_append, List.append_nil], hw⟩
  | @statement x u v s' ss hu _ _ ih =>
    rcases List.mem_cons.mp hs with rfl | hs
    · exact ⟨[], u, x :: v, rfl, hu⟩
    · obtain ⟨before, u', after, rfl, hu'⟩ := ih hs
      exact ⟨u ++ x :: before, u', after, by simp only [List.append_assoc, List.cons_append], hu'⟩

theorem Sentence.literals {w : List Lexeme} {s : Statement} (h : Sentence w s) (l : Nat) :
    .literal (.nan l) ∉ s.leaves := by
  cases h with
  | expr hd => exact hd.literals l
  | assign htarget _ hvalue =>
    exact fun hl => (List.mem_append.mp hl).elim (htarget.literals l) (hvalue.literals l)

/-- Every step of a run that begins in a closed memory finds a closed one. -/
theorem executed_closed (readonly : List String) {ss : List Statement} {m : Memory} (hm : m.Closed)
    (hl : ∀ s ∈ ss, ∀ h, Made h s.leaves) : ∀ s ∈ executed readonly ss m, s.before.Closed := by
  induction ss generalizing m with
  | nil => exact List.forall_mem_nil _
  | cons s ss ih =>
    obtain ⟨hs, hss⟩ := List.forall_mem_cons.mp hl
    have hafter := (execStatement_makes readonly (hs m.heap) m id hm).closed
    rw [executed]
    refine List.forall_mem_cons.mpr ⟨hm, ?_⟩
    generalize (execStatement readonly s).run m = o at hafter
    obtain ⟨f | u, n⟩ := o
    · exact List.forall_mem_nil _
    · exact ih hafter hss

theorem executedOf_closed {text : String} {ts : Tokens} (h : scan text = .ok ts) (readonly : List String) {m : Memory}
    (hm : m.Closed) : ∀ s ∈ executedOf text readonly m, s.before.Closed := by
  unfold executedOf
  cases hp : parseScript text with
  | error f => exact List.forall_mem_nil _
  | ok ss =>
    refine executed_closed readonly hm fun s hs => made_without_nans fun l => ?_
    obtain ⟨_, _, _, -, hsentence⟩ := ((parseScript_ok h).mp hp).sentence hs
    exact hsentence.literals l

/-- What is so of an assignment that has been read from these lexemes. -/
structure Assignment (w : List Lexeme) (target : Target) (op : AssignOp) (value : Expr) : Prop where
  /-- The target has been read as an expression. -/
  written : ∃ before u x v after, w = before ++ (u ++ x :: v) ++ after ∧
    Derives (.expr .disjunction target.expr) u ∧ Assigns x op ∧ Derives (.expr .disjunction value) v
  /-- It follows the rule if its root is a name, and only then. -/
  rule : (∃ x, target.expr.root = .name x) ↔ ∃ u, Place u target.expr
  /-- Written by the rule, it is read as the same target. -/
  reread (u : List Lexeme) : Place u target.expr → Derives (.expr .disjunction target.expr) u
  /-- If it follows the rule, what is assigned is kept in its variable or in what that reaches. -/
  placed (x : String) : target.expr.root = .name x → ∀ readonly (s : Step), s.statement = .assign target op value →
    s.before.Closed → (s.after readonly).1 = .ok () → s.Lands [.name x] (s.after readonly).2
  /-- If not, it is kept in what the names of the target reach, or nothing is changed. -/
  landed : ∀ readonly (s : Step), s.statement = .assign target op value → s.before.Closed →
    (s.after readonly).1 = .ok () →
      s.Lands target.expr.leaves (s.after readonly).2 ∨ s.before.Keeps (s.after readonly).2
  /-- An assignment to a part of a literal, an operation, a list or an object changes nothing. -/
  lost (obj : Expr) : target.container? = some obj → obj.Passing → ∀ readonly (s : Step),
    s.statement = .assign target op value → s.before.Keeps (s.after readonly).2

theorem Program.assignment {w : List Lexeme} {ss : List Statement} (h : Program w ss) {target : Target}
    {op : AssignOp} {value : Expr} (hs : .assign target op value ∈ ss) : Assignment w target op value := by
  obtain ⟨before, u, after, rfl, hu⟩ := h.sentence hs
  cases hu with
  | @assign _ _ x _ u v htarget hx hvalue =>
    exact {
      written := ⟨before, u, x, v, after, rfl, htarget, hx, hvalue⟩
      rule := ⟨fun ⟨_, hn⟩ => htarget.place hn, fun ⟨_, hp⟩ => hp.root⟩
      reread := fun _ hp => hp.derives.loosen (by decide)
      placed := fun _ hn _ _ hs hm hok => Step.rooted_lands hs hn hm hok
      landed := fun _ _ hs hm hok => Step.lands_or_lost hs hm hok
      lost := fun _ hobj hp _ _ hs => Step.passing_lost hs hobj hp }

/-- Whatever expression is a name, a property or an index is read as a target, and nothing else is.
    So an assignment of a script need not follow the rule for targets, and may be lost then. All
    memories that a run finds are closed if the first one is. -/
theorem assignments_of_a_script {text : String} {ts : Tokens} (h : scan text = .ok ts) :
    (∀ target op value x u v, words ts.list = u ++ x :: v → Derives (.expr .disjunction (Target.expr target)) u →
      Assigns x op → Derives (.expr .disjunction value) v → parseScript text = .ok [.assign target op value]) ∧
    (∀ ss, parseScript text = .ok ss → ∀ target op value, .assign target op value ∈ ss →
      Assignment (words ts.list) target op value) ∧
    ∀ readonly m, Memory.Closed m → ∀ s ∈ executedOf text readonly m, s.before.Closed := by
  refine ⟨fun target op value x u v hw htarget hx hvalue => ?_, fun ss hp target op value hs => ?_,
    fun readonly m hm => executedOf_closed h readonly hm⟩
  · refine (parseScript_ok h).mpr ?_
    rw [hw]
    exact .last (.assign htarget hx hvalue)
  · exact ((parseScript_ok h).mp hp).assignment hs

theorem property_of_an_item_is_assigned_to :
    let target : Target := .member (.index (.name "x") (.literal (.int 0))) "y"
    let m : Memory := ⟨[("x", .ref 0)], ⟨#[.list [.ref 1], .object []], 1⟩⟩
    let s : Step := ⟨.assign target .set (.name "x"), m⟩
    parseScript "x[0].y = x" = .ok [s.statement] ∧ (∃ u, Place u target.expr) ∧
      s.Lands [.name "x"] ⟨m.env, ⟨#[.list [.ref 1], .object [(.str "y", .ref 0)]], 1⟩⟩ := by
  intro target m s
  have hscan : scan "x[0].y = x" = .ok
      ⟨[⟨.ident "x", ⟨1, 1⟩⟩, ⟨.symbol .openBracket, ⟨1, 2⟩⟩, ⟨.number (.int 0), ⟨1, 3⟩⟩,
        ⟨.symbol .closeBracket, ⟨1, 4⟩⟩, ⟨.symbol .dot, ⟨1, 5⟩⟩, ⟨.ident "y", ⟨1, 6⟩⟩, ⟨.symbol .assign, ⟨1, 8⟩⟩,
        ⟨.ident "x", ⟨1, 10⟩⟩], ⟨1, 11⟩⟩ := by cbv
  have hparse : parseScript "x[0].y = x" = .ok [s.statement] := by cbv
  have hread := (assignments_of_a_script hscan).2.1 _ hparse target .set (.name "x") (List.mem_singleton_self _)
  have hclosed : m.Closed := memory_closed (bound_of_all (by decide)) (Heap.closed_of_all (by decide))
  exact ⟨hparse, hread.rule.mp ⟨"x", rfl⟩, hread.placed "x" rfl [] s rfl hclosed rfl⟩

/-- The target is an item of a list that nothing else refers to. -/
theorem a_list_of_its_own_is_assigned_to :
    let target : Target := .index (.list [.literal (.int 1)]) (.literal (.int 0))
    let m : Memory := ⟨[("x", .ref 0)], ⟨#[.list [.int 7]], 1⟩⟩
    let n : Memory := ⟨m.env, ⟨#[.list [.int 7], .list [.int 2]], 1⟩⟩
    parseScript "[1][0] = 2" = .ok [.assign target .set (.literal (.int 2))] ∧
      target.expr.root = .list [.literal (.int 1)] ∧ (¬ ∃ u, Place u target.expr) ∧
      execute "[1][0] = 2" [] m = (.ok (), n) ∧ m.Keeps n := by
  intro target m n
  have hparse : parseScript "[1][0] = 2" = .ok [.assign target .set (.literal (.int 2))] := by cbv
  have hrun : execute "[1][0] = 2" [] m = (.ok (), n) := by
    unfold execute
    rw [hparse]
    rfl
  refine ⟨hparse, rfl, ?_, hrun, rfl, ?_⟩
  · rintro ⟨u, hu⟩
    obtain ⟨x, hx⟩ := hu.root
    cases hx
  · intro r hr
    cases Nat.lt_one_iff.mp hr
    rfl

end Script

end StepFlow
