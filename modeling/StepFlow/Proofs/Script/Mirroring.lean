/-
  StepFlow.Proofs.Script.Mirroring — scripts do alike in memories that are alike.

  Two memories mirror each other (`Memory.Mirrors`) if they are the same but for what their
  containers and NaNs are called: the same names are bound in the same order, to values that are
  alike, in heaps that match and have no container that is not paired. Two computations on the
  memory coincide (`Exec.Coincide`) if they fail alike or succeed alike and leave memories that
  mirror each other again.

  Proved, for all memories, which may be shared and cyclic:
  (1) `Mirrors.write`: what is written to paired containers is seen through all that refers to
      them.
  (2) `store_coincides`: so an assignment of values that are alike coincides.
  (3) `exec_coincides`: so does a script, if its literals are like themselves.
-/

import StepFlow.Proofs.Script.Making

namespace StepFlow.Script

open Pairing

variable {p q : Pairing} {m n : Memory}

/-! ## Memories that mirror each other -/

/-- The same names are bound, in the same order, and to values that are alike. -/
structure Bindings (p : Pairing) (env env' : Env) : Prop where
  names : env.map (·.1) = env'.map (·.1)
  values : ∀ name, Option.Rel p.Values (env.get? name) (env'.get? name)

structure Memory.Mirrors (p : Pairing) (m n : Memory) : Prop where
  vars : Bindings p m.env n.env
  heaps : p.Matches m.heap n.heap
  left : ∀ r < m.heap.cells.size, ∃ s, p.refs r s
  right : ∀ s < n.heap.cells.size, ∃ r, p.refs r s

theorem option_within {v w : Option Value} (hv : Option.Rel p.Values v w) (hw : p.Within q) :
    Option.Rel q.Values v w := by
  cases hv with
  | none => exact .none
  | some hv => exact .some (hv.within hw)

/-- Where a name is bound depends on the names only. -/
theorem names_set {env env' : Env} (h : env.map (·.1) = env'.map (·.1)) (name : String) (v w : Value) :
    (env.set name v).map (·.1) = (env'.set name w).map (·.1) := by
  induction env generalizing env' with
  | nil =>
    cases env' with
    | nil => rfl
    | cons _ _ => cases h
  | cons b env ih =>
    cases env' with
    | nil => cases h
    | cons c env' =>
      obtain ⟨x, u⟩ := b
      obtain ⟨y, t⟩ := c
      obtain ⟨rfl, hrest⟩ : x = y ∧ env.map (·.1) = env'.map (·.1) := List.cons.inj h
      simp only [Env.set]
      split
      · exact h
      · exact congrArg (x :: ·) (ih hrest)

namespace Bindings

variable {env env' : Env} {ls : List Leaf}

theorem within (hb : Bindings p env env') (hw : p.Within q) : Bindings q env env' :=
  ⟨hb.names, fun name => option_within (hb.values name) hw⟩

theorem set (hb : Bindings p env env') (name : String) {v w : Value} (hv : p.Values v w) :
    Bindings p (env.set name v) (env'.set name w) := by
  refine ⟨names_set hb.names name v w, fun n => ?_⟩
  rw [Env.get?_set, Env.get?_set]
  split
  · exact .some hv
  · exact hb.values n

/-- What an expression sees of the variables is alike if its literals are. -/
theorem alike (hb : Bindings p env env') (hl : ∀ s, .literal s ∈ ls → p.Scalars s s) : Alike p env env' ls := by
  intro leaf hleaf
  cases leaf with
  | literal s => exact hl s hleaf
  | name n => exact hb.values n

end Bindings

namespace Memory.Mirrors

/-- New containers are paired, too. -/
theorem grown (hm : m.Mirrors p n) {h k : Heap} (hg : p.Grows m.heap n.heap q h k) (hq : q.Matches h k) :
    Mirrors q { m with heap := h } { n with heap := k } := by
  have hsizes := hg.sizes
  refine ⟨hm.vars.within hg.toWithin, hq, fun r hr => ?_, fun s hs => ?_⟩
  · by_cases hold : r < m.heap.cells.size
    · obtain ⟨s, hrs⟩ := hm.left r hold
      exact ⟨s, hg.refs hrs⟩
    · have hnew : m.heap.cells.size ≤ r := Nat.le_of_not_lt hold
      exact ⟨r - m.heap.cells.size + n.heap.cells.size, hg.paired hnew hr (by omega)⟩
  · by_cases hold : s < n.heap.cells.size
    · obtain ⟨r, hrs⟩ := hm.right s hold
      exact ⟨r, hg.refs hrs⟩
    · dsimp only at hs
      exact ⟨s - n.heap.cells.size + m.heap.cells.size, hg.paired (by omega) (by omega) (by omega)⟩

end Memory.Mirrors

theorem inStep_lt_iff {a b i j : Nat} (hl : InStep i j a b) : a < i ↔ b < j := by
  unfold InStep at hl
  omega

theorem matches_write {h k : Heap} (hm : p.Matches h k) {r s : Ref} (hr : p.refs r s) {c d : Cell} (hc : p.Cells c d) :
    p.Matches (h.write r c) (k.write s d) := by
  have hboth : r < h.cells.size ↔ s < k.cells.size := inStep_lt_iff (hm.inside hr)
  by_cases hin : r < h.cells.size
  · refine ⟨hm.refs_iff, hm.nans_iff, fun hr' => ?_, hm.given, fun {r' s'} hr' => ?_⟩
    · rw [Heap.size_write, Heap.size_write]
      exact hm.inside hr'
    · by_cases heq : r' = r
      · have heq' : s' = s := (hm.refs_iff hr' hr).mp heq
        rw [heq, heq', Heap.cell_write_same hin, Heap.cell_write_same (hboth.mp hin)]
        exact hc
      · rw [Heap.cell_write_other heq, Heap.cell_write_other (mt (hm.refs_iff hr' hr).mpr heq)]
        exact hm.cell hr'
  · rw [Heap.write_outside hin, Heap.write_outside (mt hboth.mpr hin)]
    exact hm

namespace Memory.Mirrors

theorem write (hm : m.Mirrors p n) {r s : Ref} (hr : p.refs r s) {c d : Cell} (hc : p.Cells c d) :
    Mirrors p { m with heap := m.heap.write r c } { n with heap := n.heap.write s d } := by
  refine ⟨hm.vars, matches_write hm.heaps hr hc, fun r' hr' => ?_, fun s' hs' => ?_⟩
  · dsimp only at hr'
    rw [Heap.size_write] at hr'
    exact hm.left r' hr'
  · dsimp only at hs'
    rw [Heap.size_write] at hs'
    exact hm.right s' hs'

theorem bind (hm : m.Mirrors p n) (name : String) {v w : Value} (hv : p.Values v w) :
    Mirrors p { m with env := m.env.set name v } { n with env := n.env.set name w } :=
  ⟨hm.vars.set name hv, hm.heaps, hm.left, hm.right⟩

end Memory.Mirrors

/-! ## Computations that coincide -/

namespace Exec

variable {α β γ δ : Type} {rel : Pairing → α → β → Prop} {rel' : Pairing → γ → δ → Prop}

/-- Two computations end alike: with the same fault, or with what is related, in memories that mirror
    each other. -/
inductive Ends (p : Pairing) (rel : Pairing → α → β → Prop) : Except Fault α × Memory → Except Fault β × Memory → Prop
  | intro {x : Except Fault α} {y : Except Fault β} {m n : Memory} (q : Pairing) :
    p.Within q → m.Mirrors q n → Agree (rel q) x y → Ends p rel (x, m) (y, n)

/-- In memories that mirror each other, the computations end alike. -/
def Coincide (p : Pairing) (rel : Pairing → α → β → Prop) (a : Exec α) (b : Exec β) : Prop :=
  ∀ m n, m.Mirrors p n → Ends p rel (a.run m) (b.run n)

theorem within_refl (p : Pairing) : p.Within p := ⟨id, id⟩

theorem coincide_pure {x : α} {y : β} (hxy : rel p x y) : Coincide p rel (pure x) (pure y) :=
  fun _ _ hm => .intro p (within_refl p) hm (.ok hxy)

theorem coincide_throw (f : Fault) : Coincide p rel (throw f) (throw f) :=
  fun _ _ hm => .intro p (within_refl p) hm (.error f)

theorem coincide_get : Coincide p Memory.Mirrors get get := fun _ _ hm => .intro p (within_refl p) hm (.ok hm)

theorem coincide_modify {f g : Memory → Memory} (hfg : ∀ m n, m.Mirrors p n → (f m).Mirrors p (g n)) :
    Coincide p (fun _ _ _ => True) (modify f) (modify g) :=
  fun m n hm => .intro p (within_refl p) (hfg m n hm) (.ok trivial)

theorem coincide_onHeap {f : Env → Act Fault α} {g : Env → Act Fault β}
    (hfg : ∀ env env', Bindings p env env' → Act.Coincide p rel (f env) (g env')) :
    Coincide p rel (onHeap f) (onHeap g) := by
  intro m n hm
  have hends := hfg m.env n.env hm.vars m.heap n.heap hm.heaps
  show Ends p rel (((f m.env).run m.heap).1, { m with heap := ((f m.env).run m.heap).2 })
    (((g n.env).run n.heap).1, { n with heap := ((g n.env).run n.heap).2 })
  generalize (f m.env).run m.heap = x at hends ⊢
  generalize (g n.env).run n.heap = y at hends ⊢
  cases hends with
  | intro q hg hq hxy => exact .intro q hg.toWithin (hm.grown hg hq) hxy

theorem Coincide.bind {a : Exec α} {b : Exec β} {f : α → Exec γ} {g : β → Exec δ} (hab : Coincide p rel a b)
    (hfg : ∀ q x y, p.Within q → rel q x y → Coincide q rel' (f x) (g y)) : Coincide p rel' (a >>= f) (b >>= g) := by
  intro m n hm
  have hends := hab m n hm
  rw [bind_run, bind_run]
  generalize a.run m = x at hends ⊢
  generalize b.run n = y at hends ⊢
  cases hends with
  | @intro _ _ m' n' q hw hm' hxy =>
    cases hxy with
    | error f => exact .intro q hw hm' (.error f)
    | @ok x y hxy =>
      have hrest := hfg q x y hw hxy m' n' hm'
      dsimp only
      generalize (f x).run m' = x' at hrest ⊢
      generalize (g y).run n' = y' at hrest ⊢
      cases hrest with
      | intro q' hw' hm'' hxy' => exact .intro q' (hw.trans hw') hm'' hxy'

end Exec

open Exec

/-! ## Statements -/

section

variable {a a' b b' v w : Value}

theorem write_coincides {r s : Ref} (hr : p.refs r s) {c d : Cell} (hc : p.Cells c d) :
    Coincide p (fun _ _ _ => True) (write r c) (write s d) :=
  coincide_modify fun _ _ hm => hm.write hr hc

theorem bind_coincides (readonly : List String) (name : String) (hv : p.Values v w) :
    Coincide p (fun _ _ _ => True) (bind readonly name v) (bind readonly name w) := by
  unfold bind
  split
  · exact coincide_throw _
  · exact coincide_modify fun _ _ hm => hm.bind name hv

theorem storeProperty_coincides (ha : p.Values a a') (name : String) (hv : p.Values v w) :
    Coincide p (fun _ _ _ => True) (storeProperty a name v) (storeProperty a' name w) := by
  unfold storeProperty
  refine coincide_get.bind fun q m n hw hm => ?_
  cases ha with
  | scalar hs =>
    dsimp only
    rw [hs.kind]
    exact coincide_throw _
  | ref hr =>
    rcases hm.heaps.cells (hw.refs hr) with ⟨xs, ys, hx, hy, -⟩ | ⟨es, fs, hx, hy, hes⟩
    · simp only [hx, hy]
      exact coincide_throw _
    · simp only [hx, hy]
      exact write_coincides (hw.refs hr) (.object (hm.heaps.assignKey hes (.str name) (hv.within hw)))

theorem forall₂_set {α β : Type} {R : α → β → Prop} {xs : List α} {ys : List β} (hx : List.Forall₂ R xs ys) (n : Nat)
    {x : α} {y : β} (hxy : R x y) : List.Forall₂ R (xs.set n x) (ys.set n y) := by
  induction hx generalizing n with
  | nil => exact .nil
  | cons h hrest ih =>
    cases n with
    | zero => exact .cons hxy hrest
    | succ n => exact .cons h (ih n)

theorem storeIndex_coincides (ha : p.Values a a') (hb : p.Values b b') (hv : p.Values v w) :
    Coincide p (fun _ _ _ => True) (storeIndex a b v) (storeIndex a' b' w) := by
  unfold storeIndex
  refine coincide_get.bind fun q m n hw hm => ?_
  have hkind := hm.heaps.kind (hb.within hw)
  cases ha with
  | scalar hs =>
    dsimp only
    rw [hs.kind]
    exact coincide_throw _
  | ref hr =>
    rcases hm.heaps.cells (hw.refs hr) with ⟨xs, ys, hx, hy, hxs⟩ | ⟨es, fs, hx, hy, hes⟩
    · simp only [hx, hy]
      refine (coincide_onHeap fun _ _ _ => indexOf_coincides (hb.within hw)).bind fun q' i j hw' hij => ?_
      cases hij
      rw [hxs.length_eq]
      split
      · exact write_coincides (hw'.refs (hw.refs hr))
          (.list (forall₂_set (values_within hxs hw') _ (hv.within (hw.trans hw'))))
      · exact coincide_onHeap fun _ _ _ => outOfRange_coincides _ i
    · simp only [hx, hy]
      cases hb with
      | ref _ =>
        dsimp only
        rw [hkind]
        exact coincide_throw _
      | scalar hs => exact write_coincides (hw.refs hr) (.object (hm.heaps.assignKey hes (hs.within hw) (hv.within hw)))

/-- The literals are like themselves. -/
def Fixes (p : Pairing) (ls : List Leaf) : Prop := ∀ s, .literal s ∈ ls → p.Scalars s s

theorem Fixes.within {ls : List Leaf} (hl : Fixes p ls) (hw : p.Within q) : Fixes q ls :=
  fun s hs => (hl s hs).within hw

theorem Fixes.left {ls ls' : List Leaf} (hl : Fixes p (ls ++ ls')) : Fixes p ls :=
  fun s hs => hl s (List.mem_append_left _ hs)

theorem Fixes.right {ls ls' : List Leaf} (hl : Fixes p (ls ++ ls')) : Fixes p ls' :=
  fun s hs => hl s (List.mem_append_right _ hs)

theorem evaluation_coincides {e : Expr} (hl : Fixes p e.leaves) :
    Coincide p Values (onHeap (eval · e)) (onHeap (eval · e)) :=
  coincide_onHeap fun _ _ hb => eval_coincides p e (hb.alike hl)

theorem store_coincides (readonly : List String) {target : Target} (hl : Fixes p target.expr.leaves)
    (hv : p.Values v w) : Coincide p (fun _ _ _ => True) (store readonly target v) (store readonly target w) := by
  unfold store
  cases target with
  | name n => exact bind_coincides readonly n hv
  | member obj n =>
    have hl : Fixes p obj.leaves := hl
    exact (evaluation_coincides hl).bind fun _ _ _ hw hc => storeProperty_coincides hc n (hv.within hw)
  | index obj key =>
    have hl : Fixes p (obj.leaves ++ key.leaves) := hl
    refine (evaluation_coincides hl.left).bind fun _ _ _ hw hc =>
      (evaluation_coincides (hl.right.within hw)).bind fun _ _ _ hw' hk => ?_
    exact storeIndex_coincides (hc.within hw') hk (hv.within (hw.trans hw'))

end

theorem operation_coincides (op : BinaryOp) {a a' b b' : Value} (ha : p.Values a a') (hb : p.Values b b') :
    Coincide p Values (onHeap fun _ => operate op a b) (onHeap fun _ => operate op a' b') :=
  coincide_onHeap fun _ _ _ => operate_coincides op ha hb

theorem assigned_coincides {target : Target} (op : AssignOp) {value : Expr} (ht : Fixes p target.expr.leaves)
    (hv : Fixes p value.leaves) : Coincide p Values (assigned target op value) (assigned target op value) := by
  unfold assigned
  refine (evaluation_coincides hv).bind fun q v w hw hv => ?_
  cases op.binary? with
  | none => exact coincide_pure hv
  | some op =>
    exact (evaluation_coincides (ht.within hw)).bind fun _ _ _ hw' hold => operation_coincides op hold (hv.within hw')

theorem execStatement_coincides (readonly : List String) {s : Statement} (hl : Fixes p s.leaves) :
    Coincide p (fun _ _ _ => True) (execStatement readonly s) (execStatement readonly s) := by
  cases s with
  | expr e =>
    unfold execStatement
    exact (evaluation_coincides hl).bind fun _ _ _ _ _ => coincide_pure trivial
  | assign target op value =>
    have hl : Fixes p (target.expr.leaves ++ value.leaves) := hl
    unfold execStatement
    exact (assigned_coincides op hl.left hl.right).bind fun _ _ _ hw hv =>
      store_coincides readonly (hl.left.within hw) hv

/-- A script does alike in memories that mirror each other. -/
theorem exec_coincides (readonly : List String) {ss : List Statement} (hl : ∀ s ∈ ss, Fixes p s.leaves) :
    Coincide p (fun _ _ _ => True) (exec readonly ss) (exec readonly ss) := by
  induction ss generalizing p with
  | nil => exact coincide_pure trivial
  | cons s ss ih =>
    obtain ⟨hs, hss⟩ := List.forall_mem_cons.mp hl
    unfold exec
    exact (execStatement_coincides readonly hs).bind fun _ _ _ hw _ => ih fun t ht => (hss t ht).within hw

end StepFlow.Script
