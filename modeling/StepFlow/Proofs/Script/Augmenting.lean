/-
  StepFlow.Proofs.Script.Augmenting — augmented assignment is assignment of the operation.

  `t op= e` evaluates `e` and then `t`; `t = t op e` evaluates them in the other order. Both go
  on in the same way: they do the operation, evaluate the container and the index of `t` once
  more, and write (`concluded`).

  Proved, for every target, operator, expression, closed memory and list of read-only names:
  (1) `augmented_runs`, `plain_runs`: the two orders, and what follows.
  (2) `augmented_assignment_is_assignment`: so the one succeeds exactly if the other one does,
      and the memories that they leave are the same but for the names of what is new. A name
      that is assigned to this way leaves all containers what they are.
-/

import StepFlow.Proofs.Script.Exchange

namespace StepFlow.Script

open Pairing Exec

variable {m : Memory}

/-! ## The two orders -/

theorem onHeap_bind {α β : Type} (f : Env → Act Fault α) (g : Env → α → Act Fault β) :
    onHeap (fun env => f env >>= g env) = onHeap f >>= fun x => onHeap fun env => g env x := by
  funext m
  show (onHeap fun env => f env >>= g env).run m = (onHeap f >>= fun x => onHeap fun env => g env x).run m
  rw [bind_run, onHeap_run, onHeap_run]
  have hrun : (f m.env >>= g m.env).run m.heap =
      ExceptT.bindCont (g m.env) ((f m.env).run m.heap).1 ((f m.env).run m.heap).2 := rfl
  rw [hrun]
  rcases (f m.env).run m.heap with ⟨f | x, h⟩
  · rfl
  · rfl

/-- What follows when both operands are known. -/
def concluded (readonly : List String) (target : Target) (op : BinaryOp) (old v : Value) : Exec Unit := do
  let x ← onHeap fun _ => operate op old v
  store readonly target x

theorem augmented_runs (readonly : List String) (target : Target) {op : AssignOp} {bop : BinaryOp}
    (hop : op.binary? = some bop) (value : Expr) : execStatement readonly (.assign target op value) =
      inTurn value target.expr >>= fun xy => concluded readonly target bop xy.2 xy.1 := by
  simp only [execStatement, assigned, hop, inTurn, concluded, bind_assoc, pure_bind]

theorem plain_runs (readonly : List String) (target : Target) (bop : BinaryOp) (value : Expr) :
    execStatement readonly (.assign target .set (.binary bop target.expr value)) =
      inTurn target.expr value >>= fun xy => concluded readonly target bop xy.1 xy.2 := by
  have hbinary : onHeap (eval · (.binary bop target.expr value)) = (do
      let a ← onHeap (eval · target.expr)
      let b ← onHeap (eval · value)
      onHeap fun _ => operate bop a b) := by
    simp only [eval, onHeap_bind]
  simp only [execStatement, assigned, AssignOp.binary?, hbinary, inTurn, concluded, bind_assoc, pure_bind]

theorem concluded_coincides {p : Pairing} (readonly : List String) {target : Target} (bop : BinaryOp)
    (hl : Fixes p target.expr.leaves) {a a' b b' : Value} (ha : p.Values a a') (hb : p.Values b b') :
    Coincide p (fun _ _ _ => True) (concluded readonly target bop a b) (concluded readonly target bop a' b') :=
  (operation_coincides bop ha hb).bind fun _ _ _ hw hx => store_coincides readonly (hl.within hw) hx

/-! ## The equivalence -/

/-- Two assignments do the same, if the one evaluates the expression first and the other one the target. -/
inductive Equivalent (m : Memory) (target : Target) (value : Expr) :
    Except Fault Unit × Memory → Except Fault Unit × Memory → Prop
  /-- Both succeed. All containers that there were have their own names, and the two memories are the same
      but for the names of new ones. -/
  | done {n n' : Memory} (p : Pairing) : m.heap.itself.Within p → n.Mirrors p n' →
    Equivalent m target value (.ok (), n) (.ok (), n')
  /-- Both fail, and change nothing. If they fail with different faults, both operands fail. -/
  | failed {f f' : Fault} {n n' : Memory} : m.Keeps n → m.Keeps n' →
    (f = f' ∨ ((onHeap (eval · value)).run m).1 = .error f ∧ ((onHeap (eval · target.expr)).run m).1 = .error f') →
    Equivalent m target value (.error f, n) (.error f', n')

theorem assignments_equivalent (readonly : List String) (target : Target) {op : AssignOp} {bop : BinaryOp}
    (hop : op.binary? = some bop) (value : Expr) (hm : m.Closed)
    (hl : Made m.heap (target.expr.leaves ++ value.leaves)) :
    Equivalent m target value ((execStatement readonly (.assign target op value)).run m)
      ((execStatement readonly (.assign target .set (.binary bop target.expr value))).run m) := by
  have hfails := (execStatement_atomic readonly (.assign target op value)).fails m
  have hfails' := (execStatement_atomic readonly (.assign target .set (.binary bop target.expr value))).fails m
  have hexchange := evaluations_exchange hm hl.right hl.left
  rw [augmented_runs readonly target hop value] at hfails ⊢
  rw [plain_runs readonly target bop value] at hfails' ⊢
  rw [bind_run] at hfails hfails' ⊢
  rw [bind_run]
  generalize (inTurn value target.expr).run m = r at hexchange hfails ⊢
  generalize (inTurn target.expr value).run m = r' at hexchange hfails' ⊢
  cases hexchange with
  | same f n n' => exact .failed (hfails f n rfl) (hfails' f n' rfl) (.inl rfl)
  | first n n' hf hf' => exact .failed (hfails _ n rfl) (hfails' _ n' rfl) (.inr ⟨hf, hf'⟩)
  | @done x y x' y' n n' p hw hmirrors hx hy =>
    have hfixes : Fixes p target.expr.leaves := fun s hs => (Heap.itself_scalars (hl.left s hs)).within hw
    have hends := concluded_coincides readonly bop hfixes hy hx n n' hmirrors
    dsimp only at hfails hfails' ⊢
    generalize (concluded readonly target bop y x).run n = r at hends hfails ⊢
    generalize (concluded readonly target bop y' x').run n' = r' at hends hfails' ⊢
    cases hends with
    | intro q hq hmirrors' hagree =>
      cases hagree with
      | ok => exact .done q (hw.trans hq) hmirrors'
      | error f => exact .failed (hfails f _ rfl) (hfails' f _ rfl) (.inl rfl)

/-- To bind a name changes no container. -/
theorem named_keeps (readonly : List String) (name : String) (op : AssignOp) (value : Expr) (m : Memory) :
    m.heap.Keeps ((execStatement readonly (.assign (.name name) op value)).run m).2.heap := by
  have hquiet := assigned_quiet (.name name) op value m
  show m.heap.Keeps ((assigned (.name name) op value >>= store readonly (.name name)).run m).2.heap
  rw [bind_run]
  generalize (assigned (.name name) op value).run m = r at hquiet ⊢
  obtain ⟨f | v, n⟩ := r
  · exact hquiet.heap
  · have hbind : ((store readonly (.name name) v).run n).2.heap = n.heap := by
      show ((bind readonly name v).run n).2.heap = n.heap
      unfold bind
      split
      · rfl
      · rfl
    dsimp only
    rw [hbind]
    exact hquiet.heap

/-- An augmented assignment does what the assignment of the operation does: it succeeds exactly if that
    one does, with memories that are the same but for the names of what is new, and else both change
    nothing. One to a name leaves all containers what they are, so also the list that the name was
    bound to. -/
theorem augmented_assignment_is_assignment (readonly : List String) (target : Target) {op : AssignOp} {bop : BinaryOp}
    (hop : op.binary? = some bop) (value : Expr) (m : Memory) (hm : m.Closed)
    (hl : Made m.heap (target.expr.leaves ++ value.leaves)) :
    Equivalent m target value ((execStatement readonly (.assign target op value)).run m)
      ((execStatement readonly (.assign target .set (.binary bop target.expr value))).run m) ∧
    ∀ name, target = .name name → m.heap.Keeps ((execStatement readonly (.assign target op value)).run m).2.heap := by
  refine ⟨assignments_equivalent readonly target hop value hm hl, ?_⟩
  rintro name rfl
  exact named_keeps readonly name op value m

/-- An entry is extended by a list that holds the list that is extended. The new list and the list that the
    index is read from change places. -/
theorem extension_of_a_shared_list :
    let m : Memory := ⟨[("xs", .ref 0), ("o", .ref 1)], ⟨#[.list [.ref 0, .int 1], .object [(.str "k", .ref 0)]], 1⟩⟩
    let key : Expr := .index (.list [.literal (.str "k")]) (.literal (.int 0))
    let target : Target := .index (.name "o") key
    let value : Expr := .list [.name "xs"]
    let after (first second : Cell) : Memory := ⟨m.env, ⟨#[.list [.ref 0, .int 1], .object [(.str "k", .ref 4)], first,
      second, .list [.ref 0, .int 1, .ref 0], .list [.str "k"]], 1⟩⟩
    let augmented := (execStatement [] (.assign target .add value)).run m
    let plain := (execStatement [] (.assign target .set (.binary .add target.expr value))).run m
    augmented = (.ok (), after (.list [.ref 0]) (.list [.str "k"])) ∧
    plain = (.ok (), after (.list [.str "k"]) (.list [.ref 0])) ∧
    Equivalent m target value augmented plain := by
  intro m key target value after augmented plain
  have hm : m.Closed := memory_closed (bound_of_all (by decide)) (Heap.closed_of_all (by decide))
  have hl : Made m.heap (target.expr.leaves ++ value.leaves) := by
    intro s hs
    have hs : s = .str "k" ∨ s = .int 0 := by
      simpa [target, key, value, Target.expr, Expr.leaves, Expr.leavesAll] using hs
    rcases hs with rfl | rfl
    · trivial
    · trivial
  have haugmented : augmented = (.ok (), after (.list [.ref 0]) (.list [.str "k"])) := by
    dsimp only [augmented, after, target, value, key, m]
    rfl
  have hplain : plain = (.ok (), after (.list [.str "k"]) (.list [.ref 0])) := by
    dsimp only [plain, after, target, value, key, m]
    rfl
  exact ⟨haugmented, hplain, (augmented_assignment_is_assignment [] target rfl value m hm hl).1⟩

end StepFlow.Script
