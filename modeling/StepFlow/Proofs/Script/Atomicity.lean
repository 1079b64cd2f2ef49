/-
  StepFlow.Proofs.Script.Atomicity — a statement has all of its effect or none.

  A statement writes at most once, and last: all that can fail comes before. So a computation
  on the memory is of one of two kinds. It changes nothing (`Exec.Quiet`): no variable and no
  container, though there may be new containers that nothing refers to. Or it changes nothing
  unless it succeeds (`Exec.Atomic`).

  Proved, for every text, memory and list of read-only names:
  (1) `execStatement_atomic`: a statement that fails changes nothing.
  (2) `exec_stops`: a script that fails has run all statements before the failing one, and
      none after it.
  (3) `failing_statement_has_no_effect`: both for a text; a text that is no script is not run.
-/

import Mathlib
import StepFlow.Proofs.Script.Sparing
import StepFlow.Script.Exec

namespace StepFlow.Script

variable {α β : Type}

/-! ## Memory that is kept -/

/-- The variables are the same, and so are all containers of the first memory. -/
structure Memory.Keeps (m n : Memory) : Prop where
  env : n.env = m.env
  heap : m.heap.Keeps n.heap

theorem Memory.Keeps.refl (m : Memory) : m.Keeps m := ⟨rfl, .refl _⟩

theorem Memory.Keeps.trans {m n o : Memory} (h : m.Keeps n) (h' : n.Keeps o) : m.Keeps o :=
  ⟨h'.env.trans h.env, h.heap.trans h'.heap⟩

theorem onHeap_run (f : Env → Act Fault α) (m : Memory) :
    (onHeap f).run m = (((f m.env).run m.heap).1, { m with heap := ((f m.env).run m.heap).2 }) := rfl

namespace Exec

/-- The computation changes nothing. -/
def Quiet (a : Exec α) : Prop := ∀ m : Memory, m.Keeps (a.run m).2

/-- The computation changes nothing if it fails, and never takes a container away. -/
structure Atomic (a : Exec α) : Prop where
  fails : ∀ (m : Memory) (f : Fault) (n : Memory), a.run m = (.error f, n) → m.Keeps n
  grows : ∀ m : Memory, m.heap.cells.size ≤ (a.run m).2.heap.cells.size

theorem bind_run (a : Exec α) (f : α → Exec β) (m : Memory) :
    (a >>= f).run m = match a.run m with
      | (.ok x, n) => (f x).run n
      | (.error e, n) => (.error e, n) := by
  show ExceptT.bindCont f (a.run m).1 (a.run m).2 = _
  cases a.run m with
  | mk r n => cases r <;> rfl

theorem Quiet.bind {a : Exec α} {f : α → Exec β} (ha : Quiet a) (hf : ∀ x, Quiet (f x)) : Quiet (a >>= f) := by
  intro m
  have ha := ha m
  rw [bind_run]
  cases hr : a.run m with
  | mk r n =>
    rw [hr] at ha
    cases r with
    | error e => exact ha
    | ok x => exact ha.trans (hf x n)

/-- What changes nothing may come before what changes nothing if it fails. -/
theorem Quiet.atomic_bind {a : Exec α} {f : α → Exec β} (ha : Quiet a) (hf : ∀ x, Atomic (f x)) :
    Atomic (a >>= f) := by
  constructor
  · intro m e o h
    have ha := ha m
    rw [bind_run] at h
    cases hr : a.run m with
    | mk r n =>
      rw [hr] at h ha
      cases r with
      | error e' =>
        cases h
        exact ha
      | ok x => exact ha.trans ((hf x).fails n e o h)
  · intro m
    have ha := (ha m).heap.size_le
    rw [bind_run]
    cases hr : a.run m with
    | mk r n =>
      rw [hr] at ha
      cases r with
      | error e => exact ha
      | ok x => exact Nat.le_trans ha ((hf x).grows n)

theorem Quiet.atomic {a : Exec α} (ha : Quiet a) : Atomic a := by
  refine ⟨fun m f n h => ?_, fun m => (ha m).heap.size_le⟩
  have ha := ha m
  rwa [h] at ha

theorem quiet_pure (x : α) : Quiet (pure x : Exec α) := fun m => .refl m

theorem quiet_throw (f : Fault) : Quiet (throw f : Exec α) := fun m => .refl m

theorem quiet_get : Quiet (get : Exec Memory) := fun m => .refl m

/-- What only looks at the variables and spares the heap changes nothing. -/
theorem quiet_onHeap {f : Env → Act Fault α} (hf : ∀ env, (f env).Spares) : Quiet (onHeap f) :=
  fun m => ⟨rfl, hf m.env m.heap⟩

/-- A change of the memory does not fail. -/
theorem atomic_modify {f : Memory → Memory} (hf : ∀ m, m.heap.cells.size ≤ (f m).heap.cells.size) :
    Atomic (modify f : Exec Unit) := by
  refine ⟨fun m e n h => ?_, hf⟩
  cases h

theorem atomic_write (r : Ref) (c : Cell) : Atomic (write r c) :=
  atomic_modify fun _ => Nat.le_of_eq Array.size_setIfInBounds.symm

end Exec

open Exec

/-! ## Statements -/

theorem bind_atomic (readonly : List String) (name : String) (v : Value) : Atomic (bind readonly name v) := by
  unfold bind
  split
  · exact (quiet_throw _).atomic_bind fun _ => atomic_modify fun _ => Nat.le_refl _
  · exact atomic_modify fun _ => Nat.le_refl _

theorem storeProperty_atomic (container : Value) (name : String) (v : Value) :
    Atomic (storeProperty container name v) := by
  unfold storeProperty
  refine quiet_get.atomic_bind fun m => ?_
  dsimp only
  split
  · split
    · exact atomic_write _ _
    · exact (quiet_throw _).atomic
  · exact (quiet_throw _).atomic

theorem storeIndex_atomic (container key v : Value) : Atomic (storeIndex container key v) := by
  unfold storeIndex
  refine quiet_get.atomic_bind fun m => ?_
  dsimp only
  split
  · split
    · split
      · exact atomic_write _ _
      · exact (quiet_throw _).atomic
    · refine (quiet_onHeap fun _ => indexOf_spares key).atomic_bind fun i => ?_
      split
      · exact atomic_write _ _
      · exact (quiet_onHeap fun _ => outOfRange_spares i).atomic
  · exact (quiet_throw _).atomic

theorem eval_quiet (e : Expr) : Quiet (onHeap (eval · e)) := quiet_onHeap fun env => eval_spares env e

theorem store_atomic (readonly : List String) (target : Target) (v : Value) :
    Atomic (store readonly target v) := by
  unfold store
  cases target with
  | name n => exact bind_atomic readonly n v
  | member obj n => exact (eval_quiet obj).atomic_bind fun c => storeProperty_atomic c n v
  | index obj key =>
    exact (eval_quiet obj).atomic_bind fun c => (eval_quiet key).atomic_bind fun k => storeIndex_atomic c k v

theorem assigned_quiet (target : Target) (op : AssignOp) (value : Expr) : Quiet (assigned target op value) := by
  unfold assigned
  refine (eval_quiet value).bind fun v => ?_
  split
  · exact quiet_pure v
  · rename_i op _
    exact (eval_quiet target.expr).bind fun old => quiet_onHeap fun _ => operate_spares op old v

theorem execStatement_atomic (readonly : List String) (s : Statement) : Atomic (execStatement readonly s) := by
  unfold execStatement
  cases s with
  | expr e => exact ((eval_quiet e).bind fun _ => quiet_pure ()).atomic
  | assign target op value =>
    exact (assigned_quiet target op value).atomic_bind fun v => store_atomic readonly target v

/-! ## Scripts -/

/-- A script that fails has run the statements before one that fails. -/
theorem exec_stops {readonly : List String} {ss : List Statement} {m n : Memory} {f : Fault}
    (h : (exec readonly ss).run m = (.error f, n)) :
    ∃ before s after k, ss = before ++ s :: after ∧ (exec readonly before).run m = (.ok (), k) ∧
      m.heap.cells.size ≤ k.heap.cells.size ∧ (execStatement readonly s).run k = (.error f, n) := by
  induction ss generalizing m with
  | nil => cases h
  | cons s ss ih =>
    have hgrows := (execStatement_atomic readonly s).grows m
    rw [exec, bind_run] at h
    cases hs : (execStatement readonly s).run m with
    | mk r k =>
      rw [hs] at h hgrows
      cases r with
      | error e =>
        cases h
        exact ⟨[], s, ss, m, rfl, rfl, Nat.le_refl _, hs⟩
      | ok u =>
        obtain ⟨before, t, after, l, rfl, hb, hl, ht⟩ := ih h
        refine ⟨s :: before, t, after, l, rfl, ?_, Nat.le_trans hgrows hl, ht⟩
        rw [exec, bind_run, hs]
        exact hb

/-- A text that is no script changes nothing. A script that fails, fails at one of its statements:
    the ones before it have run by themselves, and what they left is what there is in the end, all
    variables and all containers, those that there were at first and those that they made. -/
theorem failing_statement_has_no_effect (text : String) (readonly : List String) (m : Memory) :
    (∀ f, parseScript text = .error f → execute text readonly m = (.error f, m)) ∧
    ∀ ss f n, parseScript text = .ok ss → execute text readonly m = (.error f, n) →
      ∃ before s after k, ss = before ++ s :: after ∧ (exec readonly before).run m = (.ok (), k) ∧
        (execStatement readonly s).run k = (.error f, n) ∧ n.env = k.env ∧
        m.heap.cells.size ≤ k.heap.cells.size ∧ ∀ r < k.heap.cells.size, n.heap.cells[r]? = k.heap.cells[r]? := by
  refine ⟨fun f hp => ?_, fun ss f n hp h => ?_⟩
  · unfold execute
    rw [hp]
  · unfold execute at h
    rw [hp] at h
    obtain ⟨before, s, after, k, hss, hb, hgrows, hs⟩ := exec_stops h
    have hk := (execStatement_atomic readonly s).fails k f n hs
    exact ⟨before, s, after, k, hss, hb, hs, hk.env, hgrows, hk.heap⟩

theorem failure_after_a_shared_write :
    let m : Memory := ⟨[("x", .ref 0), ("y", .ref 0)], ⟨#[.list [.ref 0, .int 1]], 1⟩⟩
    let n : Memory := ⟨m.env, ⟨#[.list [.ref 0, .int 2], .list [.int 3], .list [.ref 0, .int 2, .int 3]], 1⟩⟩
    let ss : List Statement :=
      [.assign (.index (.name "y") (.literal (.int 1))) .set (.literal (.int 2)),
       .assign (.index (.name "x") (.literal (.int 5))) .set (.binary .add (.name "x") (.list [.literal (.int 3)]))]
    parseScript "y[1] = 2; x[5] = x + [3]" = .ok ss ∧
    execute "y[1] = 2; x[5] = x + [3]" [] m = (.error (.run (.outOfRange "5")), n) ∧
    ∃ before s after k, ss = before ++ s :: after ∧ (exec [] before).run m = (.ok (), k) ∧
      (execStatement [] s).run k = (.error (.run (.outOfRange "5")), n) ∧ n.env = k.env ∧
      m.heap.cells.size ≤ k.heap.cells.size ∧ ∀ r < k.heap.cells.size, n.heap.cells[r]? = k.heap.cells[r]? := by
  intro m n ss
  have hp : parseScript "y[1] = 2; x[5] = x + [3]" = .ok ss := by cbv
  have hx : (exec [] ss).run m = (.error (.run (.outOfRange "5")), n) := by cbv
  have hr : execute "y[1] = 2; x[5] = x + [3]" [] m = (.error (.run (.outOfRange "5")), n) := by
    unfold execute
    rw [hp]
    exact hx
  exact ⟨hp, hr, (failing_statement_has_no_effect _ [] m).2 ss _ n hp hr⟩

end StepFlow.Script
