/-
  StepFlow.Proofs.Run.Turns — what a run does to its executor in one turn, whatever the
  settings, the subscribers and the fault that may end it.

  A part of a run is orderly (`Orderly`) if it reads nothing from the logger, changes the board
  by publishing alone, and publishes on `logs` just the entries that it keeps. It is steady if
  it leaves the lock as it is; it settles if it releases the lock exactly when the run is over.
  All of these carry over from the parts of a sequence to the whole.

  Proved:
  (1) `turn_settles`: every turn of every run settles.
  (2) `begin_settles`: so do the first steps of an accepted request.
-/

import StepFlow.Proofs.Run.Steps

namespace StepFlow.Run

open Script (Memory)

/-! ## Publications -/

/-- What publishing does to a board. -/
def showOn (rules : Channel.Rules Line Signal) (b : Channel.Board Line Signal) : Signal → Channel.Board Line Signal
  | .entry e => ((Channel.publish rules .logs (.entry e)).run b).2
  | .node id => ((Channel.perform rules (.set .active (.node id))).run.run b).2

/-- The entries among signals. -/
def entriesOf : List Signal → List Entry
  | [] => []
  | .entry e :: ss => e :: entriesOf ss
  | .node _ :: ss => entriesOf ss

theorem entriesOf_append (ss ts : List Signal) : entriesOf (ss ++ ts) = entriesOf ss ++ entriesOf ts := by
  induction ss with
  | nil => rfl
  | cons s ss ih =>
    cases s with
    | entry e => rw [List.cons_append, entriesOf, entriesOf, ih, List.cons_append]
    | node id => exact ih

/-- The signals have been published in turn, and nothing else has happened to the board. -/
structure Shows (x : Executor) (ss : List Signal) (y : Executor) : Prop where
  board : y.board = ss.foldl (showOn x.rules) x.board
  program : y.program = x.program

theorem Shows.trans {x y z : Executor} {ss ts : List Signal} (h : Shows x ss y) (h' : Shows y ts z) :
    Shows x (ss ++ ts) z := by
  refine ⟨?_, h'.program.trans h.program⟩
  have hrules : y.rules = x.rules := by rw [Executor.rules, Executor.rules, h.program]
  rw [h'.board, h.board, hrules, List.foldl_append]

/-! ## Orderly parts -/

/-- The same executor with another logger. -/
def Executor.logging (x : Executor) (l : Log.Logger) : Executor := { x with logger := l }

section

variable {α β : Type}

structure Orderly (act : Walking α) (w : Walk) (x : Executor) : Prop where
  blind : ∀ l, ∃ l', (act.run w).run (x.logging l) = (((act.run w).run x).1, ((act.run w).run x).2.logging l')
  shows : ∃ ss, Shows x ss ((act.run w).run x).2 ∧ ((act.run w).run x).1.2.entries = w.entries ++ entriesOf ss

structure Steady (act : Walking α) (w : Walk) (x : Executor) : Prop extends Orderly act w x where
  locked : ((act.run w).run x).2.locked = x.locked

/-- Whether a run that has come that far holds the lock, if it did before. -/
def Progress.holds (before : Bool) : Progress → Bool
  | .going _ => before
  | .ended _ => false

structure Settles (act : Walking Progress) (w : Walk) (x : Executor) : Prop extends Orderly act w x where
  locked : ((act.run w).run x).2.locked = ((act.run w).run x).1.1.holds x.locked
  result : ∀ r, ((act.run w).run x).1.1 = .ended (.finished r) →
    r.entries = ((act.run w).run x).1.2.entries ∧ r.outcome ≠ .rejected

theorem Orderly.bind {a : Walking α} {k : α → Walking β} {w : Walk} {x : Executor} (ha : Orderly a w x)
    (hk : Orderly (k ((a.run w).run x).1.1) ((a.run w).run x).1.2 ((a.run w).run x).2) : Orderly (a >>= k) w x := by
  constructor
  · intro l
    obtain ⟨l', h⟩ := ha.blind l
    obtain ⟨l'', h'⟩ := hk.blind l'
    refine ⟨l'', ?_⟩
    rw [walking_bind, walking_bind, h]
    exact h'
  · obtain ⟨ss, hss, he⟩ := ha.shows
    obtain ⟨ts, hts, he'⟩ := hk.shows
    refine ⟨ss ++ ts, hss.trans hts, ?_⟩
    rw [walking_bind, he', he, entriesOf_append, List.append_assoc]

theorem Steady.bind {a : Walking α} {k : α → Walking β} {w : Walk} {x : Executor} (ha : Steady a w x)
    (hk : Steady (k ((a.run w).run x).1.1) ((a.run w).run x).1.2 ((a.run w).run x).2) : Steady (a >>= k) w x :=
  ⟨ha.toOrderly.bind hk.toOrderly, by rw [walking_bind, hk.locked, ha.locked]⟩

theorem Steady.settles {a : Walking α} {k : α → Walking Progress} {w : Walk} {x : Executor} (ha : Steady a w x)
    (hk : Settles (k ((a.run w).run x).1.1) ((a.run w).run x).1.2 ((a.run w).run x).2) : Settles (a >>= k) w x := by
  refine ⟨ha.toOrderly.bind hk.toOrderly, ?_, ?_⟩
  · rw [walking_bind, hk.locked, ha.locked]
  · rw [walking_bind]
    exact hk.result

theorem Steady.get {k : Walk → Walking α} {w : Walk} {x : Executor} (h : Steady (k w) w x) : Steady (get >>= k) w x :=
  ⟨⟨h.blind, h.shows⟩, h.locked⟩

theorem Settles.get {k : Walk → Walking Progress} {w : Walk} {x : Executor} (h : Settles (k w) w x) :
    Settles (get >>= k) w x := ⟨⟨h.blind, h.shows⟩, h.locked, h.result⟩

/-- What is done with the executor may depend on all of it but the logger. -/
theorem Settles.getExecutor {k : Executor → Walking Progress} {w : Walk} {x : Executor}
    (hk : ∀ l, k (x.logging l) = k x) (h : Settles (k x) w x) : Settles (getThe Executor >>= k) w x := by
  refine ⟨⟨fun l => ?_, h.shows⟩, h.locked, h.result⟩
  obtain ⟨l', hl⟩ := h.blind l
  refine ⟨l', ?_⟩
  rw [walking_bind, walking_bind, getExecutor_run, getExecutor_run, hk l]
  exact hl

/-- A part that tells nothing and touches nothing but the walk and the heap. -/
theorem steady_quiet {act : Walking α} {w : Walk} {x : Executor} (a : α) (v : Walk) (h : Heap)
    (hr : ∀ l, (act.run w).run (x.logging l) = ((a, v), { x.logging l with heap := h })) (he : v.entries = w.entries) :
    Steady act w x := by
  have hx : (act.run w).run x = ((a, v), { x with heap := h }) := hr x.logger
  refine ⟨⟨fun l => ⟨l, ?_⟩, [], ?_, ?_⟩, ?_⟩
  · rw [hr l, hx]
    rfl
  · rw [hx]
    exact ⟨rfl, rfl⟩
  · rw [hx, entriesOf, List.append_nil]
    exact he
  · rw [hx]

theorem settles_going (s : Stage) (w : Walk) (x : Executor) : Settles (pure (.going s)) w x :=
  ⟨(steady_quiet _ _ _ (fun _ => rfl) rfl).toOrderly, rfl, by intro r h; cases h⟩

end

/-! ## Telling -/

theorem steady_log (scope : Log.Scope) (n : Log.Notice) (w : Walk) (x : Executor) :
    Steady (log scope n : Walking Unit) w x :=
  ⟨⟨fun l => ⟨l.write scope n, rfl⟩, [], ⟨rfl, rfl⟩, (List.append_nil _).symm⟩, rfl⟩

theorem steady_setActive (scope : Log.Scope) (id : Option String) (w : Walk) (x : Executor) :
    Steady (setActive scope id : Walking Unit) w x :=
  ⟨⟨fun _ => ⟨_, rfl⟩, [.node id], ⟨rfl, rfl⟩, (List.append_nil _).symm⟩, rfl⟩

theorem steady_tell (scope : Log.Scope) (e : Entry) (w : Walk) (x : Executor) : Steady (tell scope e) w x :=
  ⟨⟨fun _ => ⟨_, rfl⟩, [.entry e], ⟨rfl, rfl⟩, rfl⟩, rfl⟩

theorem steady_enter (b : Log.Binding) (w : Walk) (x : Executor) : Steady (enter b) w x :=
  steady_quiet _ _ _ (fun _ => rfl) rfl

theorem steady_leave (w : Walk) (x : Executor) : Steady leave w x := steady_quiet _ _ _ (fun _ => rfl) rfl

theorem steady_perform (n : Node) (es : List Effect) (w : Walk) (x : Executor) : Steady (perform n es) w x := by
  induction es generalizing w x with
  | nil => exact steady_quiet _ _ _ (fun _ => rfl) rfl
  | cons e es ih =>
    cases e with
    | emit message status => exact .get ((steady_tell _ _ _ _).bind (ih _ _))
    | log notice => exact .get ((steady_log _ _ _ _).bind (ih _ _))

/-! ## The ends of a run -/

theorem settles_finish {o : Outcome} (h : o ≠ .rejected) (w : Walk) (x : Executor) : Settles (finish o) w x :=
  ⟨⟨fun _ => ⟨_, rfl⟩, [.node none], ⟨rfl, rfl⟩, (List.append_nil _).symm⟩, rfl,
    by intro r hr; cases hr; exact ⟨rfl, h⟩⟩

theorem settles_raise (c : Crash) (w : Walk) (x : Executor) : Settles (raise c) w x :=
  ⟨⟨fun _ => ⟨_, rfl⟩, [.node none], ⟨rfl, rfl⟩, (List.append_nil _).symm⟩, rfl, by intro r h; cases h⟩

theorem settles_fail (n : Node) (f : NodeFault) (w : Walk) (x : Executor) : Settles (fail n f) w x :=
  .get ((steady_log _ _ _ _).settles ((steady_tell _ _ _ _).settles (settles_finish (by decide) _ _)))

/-! ## From node to node -/

theorem settles_pause (next : Node) (w : Walk) (x : Executor) : Settles (pause next) w x := by
  refine .getExecutor (fun _ => rfl) ?_
  cases x.settings.pause? x.heap with
  | error t => exact settles_raise _ w x
  | ok pace =>
    cases pace with
    | none => exact settles_going _ w x
    | some seconds => exact settles_going _ w x

theorem settles_depart (n : Node) (t : Transition) (w : Walk) (x : Executor) : Settles (depart n t) w x := by
  refine .get ?_
  by_cases ht : t.terminal = true
  · rw [if_pos ht]
    exact (steady_tell _ _ _ _).settles (settles_finish (by decide) _ _)
  · rw [if_neg ht]
    cases w.flow.next? n.id t.port with
    | none => exact (steady_tell _ _ _ _).settles (settles_finish (by decide) _ _)
    | some c =>
      cases hnode : w.flow.node? c.target with
      | none =>
        simp only [hnode]
        refine Steady.settles (.get (steady_tell _ _ _ _)) (settles_finish (by decide) _ _)
      | some next =>
        simp only [hnode]
        exact settles_pause next w x

theorem settles_afterPart (n : Node) (r : Reached) (w : Walk) (x : Executor) : Settles (afterPart n r) w x := by
  cases r with
  | done t => exact (steady_leave _ _).settles (settles_depart n t _ _)
  | failed f => exact (steady_leave _ _).settles (settles_fail n f _ _)
  | calling call => exact settles_going _ _ _

theorem settles_handle (n : Node) (part : Memory → Handled) (w : Walk) (x : Executor) :
    Settles (handle n part) w x := by
  refine .get (.getExecutor (fun _ => rfl) ?_)
  refine (steady_quiet _ _ _ (fun _ => rfl) (by rfl)).settles ?_
  refine (steady_quiet _ _ _ (fun _ => rfl) (by rfl)).settles ?_
  exact (steady_perform n _ _ _).settles (settles_afterPart n _ _ _)

theorem settles_execute (n : Node) (w : Walk) (x : Executor) : Settles (execute n) w x := by
  refine (steady_quiet _ _ _ (fun _ => rfl) (by rfl)).settles (.get ?_)
  refine (steady_setActive _ _ _ _).settles ((steady_tell _ _ _ _).settles ?_)
  refine (steady_log _ _ _ _).settles ((steady_enter _ _ _).settles ?_)
  exact settles_handle n _ _ _

theorem settles_arrive (n : Node) (w : Walk) (x : Executor) : Settles (arrive n) w x := by
  refine .getExecutor (fun _ => rfl) (.get ?_)
  cases x.settings.exhausted x.heap w.steps with
  | error t => exact settles_fail n _ w x
  | ok out =>
    cases out with
    | true => exact settles_fail n _ w x
    | false => exact settles_execute n w x

/-! ## Turns -/

theorem turn_settles (p : Process) (e : Event) (w : Walk) (x : Executor) : Settles (p.turn e) w x := by
  unfold Process.turn
  split
  · exact settles_arrive _ w x
  · exact settles_handle _ _ w x
  · exact settles_going _ w x
  · exact settles_raise _ w x
  · exact settles_going _ w x

theorem begin_settles (w : Walk) (x : Executor) : Settles begin w x := by
  refine .get ?_
  cases w.flow.startNode? with
  | none =>
    refine Steady.settles (.get (steady_tell _ _ _ _)) (settles_finish (by decide) _ _)
  | some n =>
    refine (steady_log _ _ _ _).settles (Steady.settles (.get (steady_tell _ _ _ _)) ?_)
    exact ⟨⟨fun l => ⟨l, rfl⟩, [], ⟨rfl, rfl⟩, (List.append_nil _).symm⟩, rfl, by intro r h; cases h⟩

end StepFlow.Run
