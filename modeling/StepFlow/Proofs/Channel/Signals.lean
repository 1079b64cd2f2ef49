/-
  StepFlow.Proofs.Channel.Signals — what a signal holds.

  Callbacks may subscribe, publish and fail as they like. They change what a signal holds only
  by setting it, so a signal that no callback sets (`Rules.Spares`) holds what it was last set
  to from outside, whatever happens while that is published.

  Proved:
  (1) `publish_value`: publishing, on any channel, leaves the value of such a signal.
  (2) `set_value`: setting it makes it hold a value that is the same as the new one.
-/

import StepFlow.Proofs.Channel.Listening

namespace StepFlow.Channel

variable {ι α : Type} [DecidableEq ι]

namespace Action

def sets (i : ι) : Action ι α → Bool
  | .set j _ => decide (j = i)
  | .subscribe .. | .unsubscribe _ | .publish .. | .openStream .. | .take _ | .closeStream _ => false
  | .fail | .failAt _ => false

end Action

/-- No callback sets the signal. -/
def Rules.Spares (rules : Rules ι α) (i : ι) : Prop := ∀ name, ∀ a ∈ rules.program name, a.sets i = false

/-! ## Values -/

theorem lookup_set (ss : List (ι × α)) (i j : ι) (v : α) :
    (ss.map fun s => if s.1 = i then (s.1, v) else s).lookup j =
      if j = i then (ss.lookup i).map fun _ => v else ss.lookup j := by
  induction ss with
  | nil => simp
  | cons s ss ih =>
    obtain ⟨k, w⟩ := s
    rw [List.map_cons]
    by_cases hk : k = i
    · subst hk
      by_cases hj : j = k
      · simp [hj]
      · have hjk : (j == k) = false := beq_false_of_ne hj
        simp only [if_true, List.lookup_cons, hjk, if_neg hj] at ih ⊢
        exact ih
    · by_cases hj : j = i
      · subst hj
        have hjk : (j == k) = false := beq_false_of_ne fun h => hk h.symm
        simp only [if_neg hk, if_true, List.lookup_cons, hjk] at ih ⊢
        exact ih
      · by_cases hjk : j = k
        · subst hjk
          simp [hk]
        · have hne : (j == k) = false := beq_false_of_ne hjk
          simp only [if_neg hk, if_neg hj, List.lookup_cons, hne] at ih ⊢
          exact ih

theorem setValue_same (b : Board ι α) (i : ι) (v : α) : (b.setValue i v).value? i = (b.value? i).map fun _ => v :=
  (lookup_set b.signals i i v).trans (if_pos rfl)

theorem setValue_other (b : Board ι α) {i j : ι} (h : i ≠ j) (v : α) : (b.setValue j v).value? i = b.value? i :=
  (lookup_set b.signals j i v).trans (if_neg h)

/-! ## Callbacks -/

section

variable {rules : Rules ι α} {perform : Performer ι α} {i : ι}

/-- Actions that do not set the signal leave its value. -/
def Leaves (perform : Performer ι α) (i : ι) : Prop :=
  ∀ received a, a.sets i = false → ∀ b, ((perform received a).run.run b).2.value? i = b.value? i

theorem runProgram_value (hp : Leaves perform i) (v : α) {as : List (Action ι α)} (ha : ∀ a ∈ as, a.sets i = false)
    (b : Board ι α) : ((runProgram perform v as).run.run b).2.value? i = b.value? i := by
  induction as generalizing b with
  | nil => rfl
  | cons a as ih =>
    have hfirst := hp (some v) a (ha a List.mem_cons_self) b
    have hrest := ih (fun a' ha' => ha a' (List.mem_cons_of_mem a ha')) ((perform (some v) a).run.run b).2
    rw [runProgram, doing_bind]
    cases ((perform (some v) a).run.run b).1 with
    | error m => exact hfirst
    | ok o => exact hrest.trans hfirst

theorem handTo_value (hp : Leaves perform i) (hq : rules.Spares i) (j : ι) (v : α) (s : Subscriber) (b : Board ι α) :
    ((handTo rules perform j v s).run b).2.value? i = b.value? i := by
  cases s with
  | stream k => rfl
  | callback name =>
    have hprogram := runProgram_value hp v (hq name) (b.deliver name j v)
    rw [handTo_callback]
    -- a failure is noted on the board, beside the signals
    cases ((runProgram perform v (rules.program name)).run.run (b.deliver name j v)).1 with
    | ok u => exact hprogram
    | error m => exact hprogram

theorem handToAll_value (hp : Leaves perform i) (hq : rules.Spares i) (j : ι) (v : α) (ss : List Subscriber)
    (b : Board ι α) : ((handToAll rules perform j v ss).run b).2.value? i = b.value? i := by
  induction ss generalizing b with
  | nil => rfl
  | cons s ss ih => exact (ih _).trans (handTo_value hp hq j v s b)

theorem publishBy_value (hp : Leaves perform i) (hq : rules.Spares i) (j : ι) (v : α) (b : Board ι α) :
    ((publishBy rules perform j v).run b).2.value? i = b.value? i :=
  handToAll_value hp hq j v (b.subscribers j) b

/-! ## Actions -/

theorem performBy_publish (hp : Leaves perform i) (hq : rules.Spares i) (received : Option α) (j : ι) (v : α)
    (guard : Option α) (b : Board ι α) :
    ((performBy rules perform received (.publish j v guard)).run.run b).2.value? i = b.value? i := by
  have hpublished := publishBy_value hp hq j v b
  cases received with
  | none => exact hpublished
  | some r =>
    cases guard with
    | none => exact hpublished
    | some w =>
      show ((if rules.same r w then pure none
        else do
          publishBy rules perform j v
          pure none : Doing ι α (Option α)).run.run b).2.value? i = _
      split
      · rfl
      · exact hpublished

theorem performBy_set (rules : Rules ι α) (perform : Performer ι α) (received : Option α) (j : ι) (v : α)
    (b : Board ι α) :
    (performBy rules perform received (.set j v)).run.run b =
      (match b.value? j with
        | none => throw .noSignal
        | some held =>
          if rules.same v held then pure none
          else do
            set (b.setValue j v)
            publishBy rules perform j v
            pure none : Doing ι α (Option α)).run.run b := rfl

theorem performBy_take (rules : Rules ι α) (perform : Performer ι α) (received : Option α) (name : String)
    (b : Board ι α) :
    (performBy rules perform received (.take name)).run.run b =
      (match (b.streamId? name).bind fun id => (b.streams[id]?).map fun s => (id, s) with
        | none => throw (.unknown name)
        | some (id, s) =>
          match s.queue with
          | [] => throw .emptyQueue
          | v :: rest => do
            set (b.mapStream id fun s => { s with queue := rest })
            pure (some v) : Doing ι α (Option α)).run.run b := rfl

theorem performBy_closeStream (rules : Rules ι α) (perform : Performer ι α) (received : Option α) (name : String)
    (b : Board ι α) :
    (performBy rules perform received (.closeStream name)).run.run b =
      (match (b.streamId? name).bind fun id => (b.streams[id]?).map fun s => (id, s) with
        | none => throw (.unknown name)
        | some (id, s) => do
          set (b.remove s.channel (.stream id))
          pure none : Doing ι α (Option α)).run.run b := rfl

theorem performBy_leaves (hp : Leaves perform i) (hq : rules.Spares i) : Leaves (performBy rules perform) i := by
  intro received a ha b
  cases a with
  | subscribe | openStream | fail => rfl
  | unsubscribe handle =>
    rw [performBy_unsubscribe]
    cases b.handles.lookup handle with
    | none => rfl
    | some p => rfl
  | failAt which =>
    rw [performBy_failAt]
    split
    · rfl
    · rfl
  | publish j v guard => exact performBy_publish hp hq received j v guard b
  | set j v =>
    have hne : i ≠ j := fun h => of_decide_eq_false ha h.symm
    rw [performBy_set]
    cases b.value? j with
    | none => rfl
    | some held =>
      dsimp only
      split
      · rfl
      · exact (publishBy_value hp hq j v _).trans (setValue_other b hne v)
  | take name =>
    rw [performBy_take]
    split
    · rfl
    · split
      · rfl
      · rfl
  | closeStream name =>
    rw [performBy_closeStream]
    split
    · rfl
    · rfl

/-- However deep callbacks set off one another. -/
theorem performWithin_leaves (hq : rules.Spares i) (depth : Nat) : Leaves (performWithin rules depth) i := by
  induction depth with
  | zero => exact fun _ _ _ _ => rfl
  | succ depth ih => exact performBy_leaves ih hq

/-! ## From outside -/

theorem publish_value (hq : rules.Spares i) (j : ι) (v : α) (b : Board ι α) :
    ((publish rules j v).run b).2.value? i = b.value? i :=
  publishBy_value (performWithin_leaves hq nestingLimit) hq j v b

theorem set_value (hq : rules.Spares i) (v : α) {b : Board ι α} {held : α} (hb : b.value? i = some held) :
    ∃ w, ((Channel.perform rules (.set i v)).run.run b).2.value? i = some w ∧ (w = v ∨ rules.same v w = true) := by
  rw [set_board, hb]
  dsimp only
  by_cases hs : rules.same v held = true
  · rw [if_pos hs]
    exact ⟨held, hb, .inr hs⟩
  · rw [if_neg hs, publish_value hq, setValue_same, hb]
    exact ⟨v, rfl, .inl rfl⟩

end

end StepFlow.Channel
