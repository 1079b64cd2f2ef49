/-
  StepFlow.Proofs.Script.Purity — evaluating an expression is reading, and what it reads.

  An expression has names (`Expr.names`); the name of a function that it calls is none of them.
  If they are bound to values that are alike, on heaps that match, the evaluations coincide
  (`eval_coincides`). The pairing can be that of every container with itself, as far as the names
  reach (`Memory.Reached`).

  Proved, for every expression, variables and heaps, which may be shared and cyclic:
  (1) `eval_coincides`: no other variable and no other container plays a part.
  (2) `eval_congr`: variables that have the same values for the names give the same evaluation.
  (3) `eval_reaches`: two memories that have the same containers where the names reach give the
      same result, and make the same containers.
  (4) `evaluation_is_a_pure_read`: these, and that evaluation changes nothing; so a decision
      changes nothing of its run.
-/

import StepFlow.Proofs.Script.Atomicity
import StepFlow.Proofs.Script.Coincidence
import StepFlow.Run.Handler

namespace StepFlow

theorem Env.get?_set (env : Env) (name : String) (v : Value) (n : String) :
    (env.set name v).get? n = if n = name then some v else env.get? n := by
  have hcons : ∀ (m : String) (w : Value) (rest : Env),
      get? ((m, w) :: rest) n = if n = m then some w else rest.get? n := by
    intro m w rest
    unfold get?
    rw [List.lookup_cons]
    by_cases hn : n = m
    · rw [if_pos hn, beq_iff_eq.mpr hn]
    · rw [if_neg hn, beq_eq_false_iff_ne.mpr hn]
  induction env with
  | nil => exact hcons name v []
  | cons b env ih =>
    obtain ⟨m, w⟩ := b
    rw [set]
    by_cases hm : m = name
    · subst hm
      rw [if_pos (beq_self_eq_true m), hcons, hcons]
      by_cases hn : n = m
      · rw [if_pos hn, if_pos hn]
      · rw [if_neg hn, if_neg hn, if_neg hn]
    · rw [if_neg (mt beq_iff_eq.mp hm), hcons, hcons, ih]
      by_cases hn : n = m
      · rw [if_pos hn, if_pos hn, if_neg fun h => hm (hn.symm.trans h)]
      · rw [if_neg hn, if_neg hn]

/-! ## Leaves -/

/-- What stands at the leaves of an expression. The name of a function that it calls is none of them. -/
inductive Leaf where
  | name (n : String)
  | literal (s : Scalar)

namespace Expr

mutual

def leaves : Expr → List Leaf
  | .literal s => [.literal s]
  | .name n => [.name n]
  | .member obj _ => obj.leaves
  | .index obj key => obj.leaves ++ key.leaves
  | .call _ args => leavesAll args
  | .list xs => leavesAll xs
  | .object ps => leavesPairs ps
  | .unary _ e => e.leaves
  | .binary _ l r | .logical _ l r => l.leaves ++ r.leaves

def leavesAll : List Expr → List Leaf
  | [] => []
  | e :: es => e.leaves ++ leavesAll es

def leavesPairs : List (Expr × Expr) → List Leaf
  | [] => []
  | (k, v) :: ps => k.leaves ++ (v.leaves ++ leavesPairs ps)

end

end Expr

namespace Script

open Act Pairing

/-- Names are bound to values that are alike, or not bound; literals are like themselves. -/
def Alike (p : Pairing) (env env' : Env) (leaves : List Leaf) : Prop :=
  ∀ l ∈ leaves, match l with
    | .name n => Option.Rel p.Values (env.get? n) (env'.get? n)
    | .literal s => p.Scalars s s

variable {p q : Pairing} {env env' : Env} {ls ls' : List Leaf}

namespace Alike

theorem within (ha : Alike p env env' ls) (hw : p.Within q) : Alike q env env' ls := by
  intro l hl
  have hal := ha l hl
  cases l with
  | literal s => exact hal.within hw
  | name n =>
    dsimp only at hal ⊢
    generalize env.get? n = v at hal ⊢
    generalize env'.get? n = w at hal ⊢
    cases hal with
    | none => exact .none
    | some hv => exact .some (hv.within hw)

theorem left (ha : Alike p env env' (ls ++ ls')) : Alike p env env' ls := fun l hl => ha l (List.mem_append_left _ hl)

theorem right (ha : Alike p env env' (ls ++ ls')) : Alike p env env' ls' :=
  fun l hl => ha l (List.mem_append_right _ hl)

end Alike

/-! ## What the operations of an expression see -/

section Operations

variable {α β : Type} {a a' b b' : Value}

theorem lift_coincides {rel : Pairing → α → β → Prop} {x : Act Trouble α} {y : Act Trouble β}
    (hxy : Coincide p rel x y) (name : Trouble → Fault) : Coincide p rel (lift name x) (lift name y) :=
  hxy.adapt name

theorem operate_coincides (op : BinaryOp) (ha : p.Values a a') (hb : p.Values b b') :
    Coincide p Values (operate op a b) (operate op a' b') := by
  refine coincide_get.bind fun q h k hw hm => ?_
  rw [hm.kind (ha.within hw), hm.kind (hb.within hw)]
  exact lift_coincides (op.apply_coincides (ha.within hw) (hb.within hw)) _

theorem sign_coincides (op : UnaryOp) (ha : p.Values a a') : Coincide p Values (sign op a) (sign op a') := by
  have hrefuse : Coincide p Values (do throw (.run (.unaryOperand op.text ((← get).kind a))) : Act Fault Value)
      (do throw (.run (.unaryOperand op.text ((← get).kind a')))) := by
    refine coincide_get.bind fun q h k hw hm => ?_
    rw [hm.kind (ha.within hw)]
    exact coincide_throw _
  unfold sign
  cases op with
  | not =>
    refine coincide_get.bind fun q h k hw hm => ?_
    rw [hm.truth (ha.within hw)]
    exact coincide_pure (.scalar (.bool _))
  | neg =>
    cases ha with
    | ref _ => exact hrefuse
    | scalar hs =>
      cases hs with
      | null | str => exact hrefuse
      | float | nan => exact coincide_float _
      | bool | int => exact coincide_pure (.scalar (.int _))
  | pos =>
    cases ha with
    | ref _ => exact hrefuse
    | scalar hs =>
      cases hs with
      | null | str => exact hrefuse
      | float x => exact coincide_pure (.scalar (.float x))
      | nan hn => exact coincide_pure (.scalar (.nan hn))
      | bool | int => exact coincide_pure (.scalar (.int _))

theorem outOfRange_coincides (rel : Pairing → α → β → Prop) (i : Int) :
    Coincide p rel (outOfRange i : Act Fault α) (outOfRange i) := by
  unfold outOfRange
  split
  · exact coincide_throw _
  · exact coincide_throw _

theorem indexOf_coincides (ha : p.Values a a') : Coincide p (fun _ => Eq) (indexOf a) (indexOf a') := by
  have hrefuse : Coincide p (fun _ => Eq) (do throw (.run (.indexType ((← get).kind a))) : Act Fault Int)
      (do throw (.run (.indexType ((← get).kind a')))) := by
    refine coincide_get.bind fun q h k hw hm => ?_
    rw [hm.kind (ha.within hw)]
    exact coincide_throw _
  cases ha with
  | ref _ => exact hrefuse
  | scalar hs =>
    cases hs with
    | int i => exact coincide_pure rfl
    | _ => exact hrefuse

theorem readProperty_coincides (ha : p.Values a a') (name : String) :
    Coincide p Values (readProperty a name) (readProperty a' name) := by
  refine coincide_get.bind fun q h k hw hm => ?_
  cases ha with
  | scalar hs =>
    dsimp only
    rw [hs.kind]
    exact coincide_throw _
  | ref hr =>
    rcases hm.cells (hw.refs hr) with ⟨xs, ys, hx, hy, -⟩ | ⟨es, fs, hx, hy, hes⟩
    · simp only [hx, hy]
      exact coincide_throw _
    · have hl := hm.lookupKey hes (.str name)
      simp only [hx, hy]
      generalize lookupKey es (.str name) = v at hl ⊢
      generalize lookupKey fs (.str name) = w at hl ⊢
      cases hl with
      | none => exact coincide_throw _
      | some hv => exact coincide_pure hv

theorem item_alike {xs ys : List Value} (hx : List.Forall₂ p.Values xs ys) (i : Int) :
    Option.Rel p.Values ((place? xs.length i).bind (xs[·]?)) ((place? ys.length i).bind (ys[·]?)) := by
  rw [hx.length_eq]
  cases place? ys.length i with
  | none => exact .none
  | some n =>
    dsimp only [Option.bind_some]
    induction hx generalizing n with
    | nil => exact .none
    | cons hv _ ih =>
      cases n with
      | zero => exact .some hv
      | succ n => exact ih n

theorem readIndex_coincides (ha : p.Values a a') (hb : p.Values b b') :
    Coincide p Values (readIndex a b) (readIndex a' b') := by
  refine coincide_get.bind fun q h k hw hm => ?_
  have hkind := hm.kind (hb.within hw)
  have hi := indexOf_coincides (hb.within hw)
  cases ha with
  | scalar hs =>
    cases hs with
    | str s =>
      refine hi.after fun _ i _ => ?_
      dsimp only
      split
      · exact coincide_pure (.scalar (.str _))
      · exact outOfRange_coincides _ i
    | _ => exact coincide_throw _
  | ref hr =>
    rcases hm.cells (hw.refs hr) with ⟨xs, ys, hx, hy, hxs⟩ | ⟨es, fs, hx, hy, hes⟩
    · simp only [hx, hy]
      refine hi.after fun _ i hw' => ?_
      have hitem := item_alike (values_within hxs hw') i
      generalize (place? xs.length i).bind (xs[·]?) = v at hitem ⊢
      generalize (place? ys.length i).bind (ys[·]?) = w at hitem ⊢
      cases hitem with
      | none => exact outOfRange_coincides _ i
      | some hv => exact coincide_pure hv
    · simp only [hx, hy]
      cases hb with
      | ref _ =>
        dsimp only
        rw [hkind]
        exact coincide_throw _
      | @scalar s t hs =>
        have hl := hm.lookupKey hes (hs.within hw)
        dsimp only
        rw [hs.display]
        generalize lookupKey es s = v at hl ⊢
        generalize lookupKey fs t = w at hl ⊢
        cases hl with
        | some hv => exact coincide_pure hv
        | none =>
          dsimp only
          split
          · exact coincide_throw _
          · exact coincide_throw _

theorem scalarKey_coincides (ha : p.Values a a') : Coincide p Scalars (scalarKey a) (scalarKey a') := by
  cases ha with
  | scalar hs => exact coincide_pure hs
  | ref hr =>
    refine coincide_get.bind fun q h k hw hm => ?_
    rw [hm.kind (.ref (hw.refs hr))]
    exact coincide_throw _

end Operations

/-! ## Expressions -/

mutual

/-- Induction on the expression. The pairing grows from operand to operand. -/
theorem eval_coincides (p : Pairing) {env env' : Env} : ∀ e : Expr, Alike p env env' e.leaves →
    Coincide p Values (eval env e) (eval env' e)
  | .literal s, ha => coincide_pure (.scalar (ha (.literal s) (List.mem_singleton_self _)))
  | .name n, ha => by
    unfold eval
    have hv := ha (.name n) (List.mem_singleton_self _)
    dsimp only at hv
    generalize env.get? n = v at hv ⊢
    generalize env'.get? n = w at hv ⊢
    cases hv with
    | none => exact coincide_throw _
    | some hv => exact coincide_pure hv
  | .member obj n, ha => by
    unfold eval
    exact (eval_coincides p obj ha).bind fun _ _ _ _ hc => readProperty_coincides hc n
  | .index obj key, ha => by
    unfold eval
    exact (eval_coincides p obj ha.left).bind fun q _ _ hw hc =>
      (eval_coincides q key (ha.right.within hw)).bind fun _ _ _ hw' hk => readIndex_coincides (hc.within hw') hk
  | .call n args, ha => by
    unfold eval
    split
    · exact coincide_throw _
    · rename_i f _
      exact (evalAll_coincides p args ha).bind fun _ _ _ _ hv => lift_coincides (f.apply_coincides hv) _
  | .list xs, ha => by
    unfold eval
    exact (evalAll_coincides p xs ha).bind fun _ _ _ _ hv => coincide_alloc (.list hv)
  | .object ps, ha => by
    unfold eval
    exact (evalPairs_coincides p ps .nil ha).bind fun _ _ _ _ he => coincide_alloc (.object he)
  | .unary op e, ha => by
    unfold eval
    exact (eval_coincides p e ha).bind fun _ _ _ _ hv => sign_coincides op hv
  | .binary op l r, ha => by
    unfold eval
    exact (eval_coincides p l ha.left).bind fun q _ _ hw hl =>
      (eval_coincides q r (ha.right.within hw)).bind fun _ _ _ hw' hr => operate_coincides op (hl.within hw') hr
  | .logical op l r, ha => by
    unfold eval
    refine (eval_coincides p l ha.left).bind fun q _ _ hw hl => coincide_get.bind fun q' h k hw' hm => ?_
    rw [hm.truth (hl.within hw')]
    split
    · exact coincide_pure (hl.within hw')
    · exact eval_coincides q' r (ha.right.within (hw.trans hw'))

theorem evalAll_coincides (p : Pairing) {env env' : Env} : ∀ es : List Expr, Alike p env env' (Expr.leavesAll es) →
    Coincide p (fun q => List.Forall₂ q.Values) (evalAll env es) (evalAll env' es)
  | [], _ => coincide_pure .nil
  | e :: es, ha => by
    unfold evalAll
    exact (eval_coincides p e ha.left).bind fun q _ _ hw hv =>
      (evalAll_coincides q es (ha.right.within hw)).bind fun _ _ _ hw' hvs =>
        coincide_pure (.cons (hv.within hw') hvs)

theorem evalPairs_coincides (p : Pairing) {env env' : Env} {es fs : List (Scalar × Value)} :
    ∀ ps : List (Expr × Expr), List.Forall₂ p.Entries es fs → Alike p env env' (Expr.leavesPairs ps) →
      Coincide p (fun q => List.Forall₂ q.Entries) (evalPairs env es ps) (evalPairs env' fs ps)
  | [], he, _ => coincide_pure he
  | (ke, ve) :: ps, he, ha => by
    unfold evalPairs
    refine (eval_coincides p ke ha.left).bind fun q _ _ hw hk => (scalarKey_coincides hk).bind fun q' _ _ hw' hk =>
      (eval_coincides q' ve (ha.right.left.within (hw.trans hw'))).bind fun q'' _ _ hw'' hv =>
        coincide_of_matches fun h k hm => ?_
    have hall : p.Within q'' := hw.trans (hw'.trans hw'')
    exact evalPairs_coincides q'' ps (hm.assignKey (entries_within he hall) (hk.within hw'') hv)
      (ha.right.right.within hall)

end

/-! ## One heap -/

mutual

theorem eval_congr {env env' : Env} :
    ∀ e : Expr, (∀ n, .name n ∈ e.leaves → env'.get? n = env.get? n) → eval env' e = eval env e
  | .literal _, _ => rfl
  | .name n, hn => by
    unfold eval
    rw [hn n (List.mem_singleton_self _)]
  | .member obj n, hn => by
    unfold eval
    rw [eval_congr obj hn]
  | .index obj key, hn => by
    unfold eval
    rw [eval_congr obj fun n h => hn n (List.mem_append_left _ h),
      eval_congr key fun n h => hn n (List.mem_append_right _ h)]
  | .call _ args, hn => by
    unfold eval
    rw [evalAll_congr args hn]
  | .list xs, hn => by
    unfold eval
    rw [evalAll_congr xs hn]
  | .object ps, hn => by
    unfold eval
    rw [evalPairs_congr [] ps hn]
  | .unary _ e, hn => by
    unfold eval
    rw [eval_congr e hn]
  | .binary _ l r, hn | .logical _ l r, hn => by
    unfold eval
    rw [eval_congr l fun n h => hn n (List.mem_append_left _ h),
      eval_congr r fun n h => hn n (List.mem_append_right _ h)]

theorem evalAll_congr {env env' : Env} : ∀ es : List Expr,
    (∀ n, .name n ∈ Expr.leavesAll es → env'.get? n = env.get? n) → evalAll env' es = evalAll env es
  | [], _ => rfl
  | e :: es, hn => by
    unfold evalAll
    rw [eval_congr e fun n h => hn n (List.mem_append_left _ h),
      evalAll_congr es fun n h => hn n (List.mem_append_right _ h)]

theorem evalPairs_congr {env env' : Env} (entries : List (Scalar × Value)) : ∀ ps : List (Expr × Expr),
    (∀ n, .name n ∈ Expr.leavesPairs ps → env'.get? n = env.get? n) →
      evalPairs env' entries ps = evalPairs env entries ps
  | [], _ => rfl
  | (ke, ve) :: ps, hn => by
    have hrest : ∀ entries, evalPairs env' entries ps = evalPairs env entries ps := fun entries =>
      evalPairs_congr entries ps fun n h => hn n (List.mem_append_right _ (List.mem_append_right _ h))
    unfold evalPairs
    rw [eval_congr ke fun n h => hn n (List.mem_append_left _ h),
      eval_congr ve fun n h => hn n (List.mem_append_right _ (List.mem_append_left _ h))]
    simp only [hrest]

end

/-! ## What the names reach -/

/-- The containers that the names are bound to, and those that they hold. -/
inductive Memory.Reached (m : Memory) (ls : List Leaf) : Ref → Prop
  | name {n : String} {r : Ref} : .name n ∈ ls → m.env.get? n = some (.ref r) → Reached m ls r
  | member {r q : Ref} : Reached m ls r → q ∈ (m.heap.cell r).refs → Reached m ls q

/-- Some containers stand for themselves, and so do all NaNs. -/
def sameOn (D : Ref → Prop) : Pairing := ⟨fun r s => r = s ∧ D r, Eq⟩

theorem sameOn_scalars {D : Ref → Prop} (s : Scalar) : (sameOn D).Scalars s s := by
  cases s with
  | null => exact .null
  | bool b => exact .bool b
  | int n => exact .int n
  | float x => exact .float x
  | nan l => exact .nan rfl
  | str s => exact .str s

theorem sameOn_values {D : Ref → Prop} {v : Value} (hv : ∀ r ∈ v.refs, D r) : (sameOn D).Values v v := by
  cases v with
  | scalar s => exact .scalar (sameOn_scalars s)
  | ref r => exact .ref ⟨rfl, hv r (List.mem_singleton_self r)⟩

theorem sameOn_cells {D : Ref → Prop} {c : Cell} (hc : ∀ r ∈ c.refs, D r) : (sameOn D).Cells c c := by
  have hv : ∀ v ∈ c.values, (sameOn D).Values v v := fun v hv =>
    sameOn_values fun r hr => hc r (Cell.mem_refs.mpr ⟨v, hv, hr⟩)
  cases c with
  | list xs => exact .list (List.forall₂_same.mpr hv)
  | object es =>
    exact .object (List.forall₂_same.mpr fun e he => ⟨sameOn_scalars e.1, hv e.2 (List.mem_map_of_mem he)⟩)

theorem cell_eq_of_getElem? {h k : Heap} {r : Ref} (hr : k.cells[r]? = h.cells[r]?) : k.cell r = h.cell r := by
  unfold Heap.cell
  rw [Array.getD_eq_getD_getElem?, Array.getD_eq_getD_getElem?, hr]

theorem getElem?_eq_cell {h : Heap} {r : Ref} (hr : r < h.cells.size) : h.cells[r]? = some (h.cell r) := by
  unfold Heap.cell
  rw [Array.getD_eq_getD_getElem?, Array.getElem?_eq_getElem hr, Option.getD_some]

theorem sameOn_matches {D : Ref → Prop} {h k : Heap} (hsize : k.cells.size = h.cells.size)
    (hnan : k.nextNan = h.nextNan) (hD : ∀ r, D r → ∀ q ∈ (h.cell r).refs, D q)
    (hcell : ∀ r, D r → k.cells[r]? = h.cells[r]?) : (sameOn D).Matches h k := by
  have hstep : ∀ n a : Nat, InStep n n a a := fun n a => .inr (Nat.add_comm a n)
  refine ⟨?_, ?_, ?_, ?_, ?_⟩
  · rintro r r' _ _ ⟨rfl, -⟩ ⟨rfl, -⟩
    exact Iff.rfl
  · rintro a a' _ _ rfl rfl
    exact Iff.rfl
  · rintro r _ ⟨rfl, -⟩
    rw [hsize]
    exact hstep _ r
  · rintro a _ rfl
    rw [hnan]
    exact hstep _ a
  · rintro r _ ⟨rfl, hr⟩
    rw [cell_eq_of_getElem? (hcell r hr)]
    exact sameOn_cells (hD r hr)

/-- Everything stands for itself. -/
def same : Pairing := ⟨Eq, Eq⟩

theorem eq_of_scalars {s t : Scalar} (h : same.Scalars s t) : s = t := by
  cases h with
  | nan hn => exact congrArg Scalar.nan hn
  | _ => rfl

theorem eq_of_values {v w : Value} (h : same.Values v w) : v = w := by
  cases h with
  | scalar hs => exact congrArg Value.scalar (eq_of_scalars hs)
  | ref hr => exact congrArg Value.ref hr

theorem eq_of_cells {c d : Cell} (h : same.Cells c d) : c = d := by
  cases h with
  | list hx => exact congrArg Cell.list (List.forall₂_eq_eq_eq ▸ hx.imp fun _ _ => eq_of_values)
  | object he =>
    exact congrArg Cell.object (List.forall₂_eq_eq_eq ▸ he.imp fun _ _ h =>
      Prod.ext (eq_of_scalars h.1) (eq_of_values h.2))

theorem reached_alike {m : Memory} {env : Env} {ls : List Leaf}
    (hnames : ∀ x, .name x ∈ ls → env.get? x = m.env.get? x) : Alike (sameOn (m.Reached ls)) m.env env ls := by
  intro l hl
  cases l with
  | literal s => exact sameOn_scalars s
  | name x =>
    dsimp only
    rw [hnames x hl]
    cases hx : m.env.get? x with
    | none => exact .none
    | some v =>
      refine .some (sameOn_values fun r hr => ?_)
      cases v with
      | scalar s => cases hr
      | ref q => exact .name hl (by rw [hx, List.mem_singleton.mp hr])

theorem eval_reaches (e : Expr) {m n : Memory} (hsize : n.heap.cells.size = m.heap.cells.size)
    (hnan : n.heap.nextNan = m.heap.nextNan) (hnames : ∀ x, .name x ∈ e.leaves → n.env.get? x = m.env.get? x)
    (hcells : ∀ r, m.Reached e.leaves r → n.heap.cells[r]? = m.heap.cells[r]?) :
    ((eval n.env e).run n.heap).1 = ((eval m.env e).run m.heap).1 ∧ ∀ r ≥ m.heap.cells.size,
      ((eval n.env e).run n.heap).2.cells[r]? = ((eval m.env e).run m.heap).2.cells[r]? := by
  have hends := eval_coincides _ e (reached_alike hnames) _ _
    (sameOn_matches hsize hnan (fun _ hr _ => .member hr) hcells)
  generalize (eval m.env e).run m.heap = x at hends ⊢
  generalize (eval n.env e).run n.heap = y at hends ⊢
  cases hends with
  | @intro _ _ h' k' q hg hm hxy =>
    have hsizes := hg.sizes
    have hsame : q.Within same := by
      refine ⟨fun {r s : Nat} hr => ?_, fun {a b} hn => ?_⟩
      · rcases hg.newRefs hr with hr | ⟨-, hr⟩
        · exact hr.1
        · show r = s
          omega
      · rcases hg.newNans hn with hn | ⟨-, hn⟩
        · exact hn
        · show a = b
          omega
    refine ⟨?_, fun r hr => ?_⟩
    · cases hxy with
      | error f => rfl
      | ok hv => exact congrArg Except.ok (eq_of_values (hv.within hsame)).symm
    · show k'.cells[r]? = h'.cells[r]?
      by_cases hlt : r < h'.cells.size
      · have hcell := eq_of_cells ((hm.cell (hg.paired hr hlt (by omega) : q.refs r r)).within hsame)
        rw [getElem?_eq_cell hlt, getElem?_eq_cell (by omega : r < k'.cells.size), hcell]
      · rw [Array.getElem?_eq_none (by omega), Array.getElem?_eq_none (by omega)]

/-! ## Decisions -/

theorem evaluate_spares (text : String) (env : Env) : Spares (evaluate text env) :=
  (spares_ofExcept _).bind fun e => eval_spares env e

theorem decision_keeps (n : Node) (m : Memory) : m.Keeps (Run.Handler.decision n m).memory := by
  unfold Run.Handler.decision
  cases Run.nonblank? n.data.condition with
  | none => exact .refl m
  | some text =>
    have hk := evaluate_spares text m.env m.heap
    dsimp only
    generalize hr : (evaluate text m.env).run.run m.heap = r
    replace hk : m.heap.Keeps r.2 := hr ▸ hk
    obtain ⟨v | f, h⟩ := r
    · exact ⟨rfl, hk⟩
    · exact ⟨rfl, hk⟩

/-- Evaluation changes no variable and no container, whether it gives a value or fails. It sees the
    variables that the expression names, so not one that is called like a function that is called,
    and the containers that they reach: with these alike it ends alike, in whatever memory, and in
    a memory of the same size it gives the same and makes the same containers, in the places after
    those there were. So a decision changes nothing of its run. -/
theorem evaluation_is_a_pure_read (e : Expr) :
    (∀ m : Memory, m.Keeps ((onHeap (eval · e)).run m).2) ∧
    (∀ env env' : Env, (∀ n, .name n ∈ e.leaves → env'.get? n = env.get? n) → eval env' e = eval env e) ∧
    (∀ f args env v, e = .call f args → .name f ∉ Expr.leavesAll args → eval (env.set f v) e = eval env e) ∧
    (∀ p env env' h k, p.Matches h k → Alike p env env' e.leaves →
      p.Ends h k Pairing.Values ((eval env e).run h) ((eval env' e).run k)) ∧
    (∀ m n : Memory, n.heap.cells.size = m.heap.cells.size → n.heap.nextNan = m.heap.nextNan →
      (∀ x, .name x ∈ e.leaves → n.env.get? x = m.env.get? x) →
      (∀ r, m.Reached e.leaves r → n.heap.cells[r]? = m.heap.cells[r]?) →
      ((onHeap (eval · e)).run n).1 = ((onHeap (eval · e)).run m).1 ∧ ∀ r ≥ m.heap.cells.size,
        ((onHeap (eval · e)).run n).2.heap.cells[r]? = ((onHeap (eval · e)).run m).2.heap.cells[r]?) ∧
    ∀ (n : Node) (m : Memory), n.type = .decision → m.Keeps (Run.Handler.run n m).memory := by
  refine ⟨eval_quiet e, fun _ _ => eval_congr e, ?_, fun p _ _ h k hm ha => eval_coincides p e ha h k hm,
    fun _ _ hsize hnan hnames hcells => eval_reaches e hsize hnan hnames hcells, ?_⟩
  · rintro f args env v rfl hf
    refine eval_congr _ fun n hn => ?_
    have hne : n ≠ f := by
      rintro rfl
      exact hf hn
    rw [Env.get?_set, if_neg hne]
  · intro n m hn
    unfold Run.Handler.run
    rw [hn]
    exact decision_keeps n m

theorem length_of_a_cycle :
    let e : Expr := .call "len" [.binary .add (.name "xs") (.list [.name "xs"])]
    let m : Memory := ⟨[("xs", .ref 0), ("y", .ref 1)], ⟨#[.list [.ref 0, .int 1], .list [.int 5]], 1⟩⟩
    let n : Memory := ⟨[("len", .ref 1), ("xs", .ref 0)], ⟨#[.list [.ref 0, .int 1], .object []], 1⟩⟩
    let k : Heap := ⟨#[.object [], .list [.ref 1, .int 1]], 4⟩
    let p : Pairing := ⟨fun r s => r = 0 ∧ s = 1, fun _ _ => False⟩
    ((onHeap (eval · e)).run m).1 = .ok (.int 3) ∧ m.Keeps ((onHeap (eval · e)).run m).2 ∧
      eval (m.env.set "len" (.int 7)) e = eval m.env e ∧ ((onHeap (eval · e)).run n).1 = .ok (.int 3) ∧
      p.Ends m.heap k Pairing.Values ((eval m.env e).run m.heap) ((eval [("xs", .ref 1)] e).run k) := by
  intro e m n k p
  obtain ⟨hkeeps, -, hcall, hends, hsame, -⟩ := evaluation_is_a_pure_read e
  have hthree : ((onHeap (eval · e)).run m).1 = .ok (.int 3) := by rfl
  have hnames : ∀ x, .name x ∈ e.leaves → x = "xs" := by
    intro x hx
    simpa [e, Expr.leaves, Expr.leavesAll] using hx
  have hreached : ∀ r, m.Reached e.leaves r → r = 0 := by
    intro r hr
    induction hr with
    | name hx hr =>
      cases hnames _ hx
      cases hr
      rfl
    | member _ hq ih =>
      subst ih
      exact List.mem_singleton.mp hq
  have hone : ((onHeap (eval · e)).run n).1 = ((onHeap (eval · e)).run m).1 := by
    refine (hsame m n rfl rfl (fun x hx => ?_) fun r hr => ?_).1
    · cases hnames x hx
      rfl
    · cases hreached r hr
      rfl
  have hmatches : p.Matches m.heap k := by
    refine ⟨?_, fun h => h.elim, ?_, fun h => h.elim, ?_⟩
    · rintro r r' s s' ⟨rfl, rfl⟩ ⟨rfl, rfl⟩
      exact ⟨fun _ => rfl, fun _ => rfl⟩
    · rintro r s ⟨rfl, rfl⟩
      exact .inl ⟨by decide, by decide⟩
    · rintro r s ⟨rfl, rfl⟩
      exact .list (.cons (.ref ⟨rfl, rfl⟩) (.cons (.scalar (.int 1)) .nil))
  have halike : Alike p m.env [("xs", .ref 1)] e.leaves := by
    intro l hl
    have hl : l = .name "xs" := by simpa [e, Expr.leaves, Expr.leavesAll] using hl
    subst hl
    exact .some (.ref ⟨rfl, rfl⟩)
  refine ⟨hthree, hkeeps m, hcall "len" _ _ _ rfl ?_, hone.trans hthree, hends p _ _ _ _ hmatches halike⟩
  simp [Expr.leavesAll, Expr.leaves]

end Script

end StepFlow
