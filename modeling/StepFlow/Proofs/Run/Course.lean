/-
  StepFlow.Proofs.Run.Course — accepted runs, turn by turn, in any surroundings.

  What a run meets outside are the answers to its calls and the ends of its pauses, which pass
  or raise (`Surroundings`). A course is where it stands after each turn; one that has ended
  stays where it is. Nothing is assumed of the settings: a budget that is no number is a fault
  of the first node, and a pacing that is none raises before the second one.

  Proved:
  (1) `course_zero`, `course_next`: a course begins with its request, and each of its turns is
      what the process makes of the event that it waits for.
  (2) `turn_cases`: all that a turn can do, by the stage of the run.
  (3) `course_sound`: all along, a run is at a node of its flow that starts it or is
      the target of a connection, and the blocks that it is in restore the scope of its caller.
      When it has ended it is in none, and its executor is cleared.
-/

import StepFlow.Flow.Diagnose
import StepFlow.Proofs.Run.Exclusion

namespace StepFlow.Run

open Script (Memory)

/-! ## Courses -/

/-- What a run meets outside, by the number of the turn. -/
structure Surroundings where
  answer : Nat → Http.Answer
  /-- A pause passes, or raises. -/
  pause : Nat → Except Crash Unit

/-- The event that a run waits for. -/
def Surroundings.event (s : Surroundings) (k : Nat) : Stage → Event
  | .arriving _ => .step
  | .calling .. => .answer (s.answer k)
  | .pausing .. => .wake (s.pause k)

/-- A run as far as it has come, with its executor. -/
abbrev Standing := (Progress × Walk) × Executor

/-- The turn of that number. -/
def Standing.turned (m : Standing) (s : Surroundings) (k : Nat) : Standing :=
  match m.1.1 with
  | .going stage => ((Process.turn ⟨m.1.2, stage⟩ (s.event k stage)).run m.1.2).run m.2
  | .ended _ => m

/-- Where the run of a request stands after that many turns, from when it was accepted. -/
def Request.course (q : Request) (x : Executor) (s : Surroundings) : Nat → Standing
  | 0 => q.begun x
  | k + 1 => (q.course x s k).turned s k

section

variable (q : Request) {x : Executor} (s : Surroundings)

theorem course_zero (h : x.locked = false) :
    (request q.caller q.tag q.flow q.seed).run x = (ofProgress (q.course x s 0).1, (q.course x s 0).2) := by
  rw [request_run, h]
  rfl

theorem turned_going {m : Standing} {stage : Stage} (h : m.1.1 = .going stage) (k : Nat) :
    m.turned s k = ((Process.turn ⟨m.1.2, stage⟩ (s.event k stage)).run m.1.2).run m.2 := by
  rw [Standing.turned, h]

theorem course_next {k : Nat} {stage : Stage} (h : (q.course x s k).1.1 = .going stage) :
    (Process.next ⟨(q.course x s k).1.2, stage⟩ (s.event k stage)).run (q.course x s k).2 =
      (ofProgress (q.course x s (k + 1)).1, (q.course x s (k + 1)).2) := by
  rw [Request.course, turned_going s h]
  rfl

theorem course_ended {k : Nat} {e : Ended} (h : (q.course x s k).1.1 = .ended e) :
    q.course x s (k + 1) = q.course x s k := by
  rw [Request.course, Standing.turned, h]

end

/-! ## Turns -/

/-- What a turn makes of a run that is at this stage when this event comes. -/
inductive Turns (w : Walk) (x : Executor) : Stage → Event → Standing → Prop
  | barred {n : Node} {f : NodeFault} {r : Standing} :
    x.settings.bar? x.heap w.steps = some f → Goes w x r (.ends (.barred n f)) → Turns w x (.arriving n) .step r
  | calls {n : Node} {c : Http.Call} {y : Executor} :
    x.settings.bar? x.heap w.steps = none → (Handler.run n ⟨w.env, x.heap⟩).reached = .calling c →
      Keeps { x with heap := (Handler.run n ⟨w.env, x.heap⟩).memory.heap } y →
        Turns w x (.arriving n) .step
          ((.going (.calling n c), (w.executing n).handled n (Handler.run n ⟨w.env, x.heap⟩)), y)
  | visits {n : Node} {r : Standing} :
    x.settings.bar? x.heap w.steps = none → (∀ c, (Handler.run n ⟨w.env, x.heap⟩).reached ≠ .calling c) →
      Goes ((w.executing n).handled n (Handler.run n ⟨w.env, x.heap⟩)).left
        { x with heap := (Handler.run n ⟨w.env, x.heap⟩).memory.heap } r
        (wayFrom w.flow n (resumedResult (Handler.run n ⟨w.env, x.heap⟩).reached)) →
          Turns w x (.arriving n) .step r
  | resumes {n : Node} {c : Http.Call} {a : Http.Answer} {r : Standing} :
    Goes (w.handled n (Handler.resume n c a ⟨w.env, x.heap⟩)).left
      { x with heap := (Handler.resume n c a ⟨w.env, x.heap⟩).memory.heap } r
      (wayFrom w.flow n (resumedResult (Handler.resume n c a ⟨w.env, x.heap⟩).reached)) →
        Turns w x (.calling n c) (.answer a) r
  | wakes {n : Node} {seconds : Float} :
    Turns w x (.pausing n seconds) (.wake (.ok ())) ((.going (.arriving n), w), x)
  | disturbed {n : Node} {seconds : Float} {c : Crash} {y : Executor} : Clears x y →
    Turns w x (.pausing n seconds) (.wake (.error c)) ((.ended (.raised c), w.left), y)

theorem arrive_turns (n : Node) (w : Walk) (x : Executor) :
    Turns w x (.arriving n) .step (((arrive n).run w).run x) := by
  cases hb : x.settings.bar? x.heap w.steps with
  | some f => exact .barred hb (arrive_barred hb)
  | none =>
    obtain ⟨y, hy, hk⟩ := arrive_open (n := n) hb
    rw [hy]
    cases hr : (Handler.run n ⟨w.env, x.heap⟩).reached with
    | calling c => exact .calls hb hr hk
    | done t | failed f =>
      have hcalls : ∀ c, (Handler.run n ⟨w.env, x.heap⟩).reached ≠ .calling c := by
        intro c hc
        rw [hr] at hc
        cases hc
      rw [← hr]
      exact .visits hb hcalls ((afterPart_goes n hcalls _ y).after hk)

theorem turn_cases (s : Surroundings) (k : Nat) (stage : Stage) (w : Walk) (x : Executor) :
    Turns w x stage (s.event k stage) (((Process.turn ⟨w, stage⟩ (s.event k stage)).run w).run x) := by
  cases stage with
  | arriving n => exact arrive_turns n w x
  | calling n c =>
    obtain ⟨y, hy, hk⟩ := handle_run n (Handler.resume n c (s.answer k)) w x
    have hturn : Process.turn ⟨w, .calling n c⟩ (s.event k (.calling n c)) =
        handle n (Handler.resume n c (s.answer k)) := rfl
    rw [hturn, hy]
    exact .resumes ((afterPart_goes n (resume_settles n c (s.answer k) _) _ y).after hk)
  | pausing n seconds =>
    cases hp : s.pause k with
    | ok u =>
      rw [Surroundings.event, hp]
      exact .wakes
    | error c =>
      obtain ⟨y, hy, hc⟩ := raise_run c w x
      have hturn : Process.turn ⟨w, .pausing n seconds⟩ (.wake (.error c)) = raise c := rfl
      rw [Surroundings.event, hp, hturn, hy]
      exact .disturbed hc

/-! ## Blocks -/

/-- The scope outside all blocks. -/
def Walk.outside (w : Walk) : Log.Scope := w.blocks.foldl Log.Scope.bind w.scope

theorem entering_outside (w : Walk) (b : Log.Binding) : (w.entering b).outside = w.outside := by
  rw [Walk.outside, Walk.entering, List.foldl_cons, Log.Scope.bind_before]
  rfl

theorem left_outside (w : Walk) : w.left.outside = w.outside := by
  unfold Walk.outside Walk.left
  cases w.blocks <;> rfl

/-- How many blocks a run is in: its own, and that of its handler while a call is out. -/
def Progress.depth : Progress → Nat
  | .going (.calling ..) => 2
  | .going _ => 1
  | .ended _ => 0

/-! ## Nodes -/

/-- The node that a run is at, or pauses before. -/
def Stage.node : Stage → Node
  | .arriving n | .calling n _ | .pausing n _ => n

/-- The node is one of the flow, and it starts a run or a connection leads to its id. -/
def Enterable (flow : Flow) (n : Node) : Prop := n ∈ flow.nodes ∧ (n.type = .start ∨ flow.isTarget n.id = true)

/-- A way onto a node follows a connection to it. -/
theorem wayOut_onto {flow : Flow} {n next : Node} {t : Transition} (h : wayOut flow n t = .onto next) :
    ∃ c, flow.next? n.id t.port = some c ∧ flow.node? c.target = some next := by
  unfold wayOut at h
  split at h
  · cases h
  · cases hc : flow.next? n.id t.port with
    | none =>
      rw [hc] at h
      cases h
    | some c =>
      rw [hc] at h
      dsimp only at h
      cases hn : flow.node? c.target with
      | none =>
        rw [hn] at h
        cases h
      | some m =>
        rw [hn] at h
        cases h
        exact ⟨c, rfl, hn⟩

theorem node?_id {flow : Flow} {id : String} {n : Node} (h : flow.node? id = some n) : n.id = id :=
  eq_of_beq (List.find?_some (p := fun m : Node => m.id == id) h)

theorem wayOut_enterable {flow : Flow} {n next : Node} {t : Transition} (h : wayOut flow n t = .onto next) :
    Enterable flow next := by
  obtain ⟨c, hc, hn⟩ := wayOut_onto h
  have htarget : flow.isTarget next.id = true :=
    List.any_eq_true.mpr ⟨c, List.mem_of_find?_eq_some hc, beq_iff_eq.mpr (node?_id hn).symm⟩
  exact ⟨List.mem_of_find?_eq_some hn, .inr htarget⟩

theorem wayFrom_enterable {flow : Flow} {n next : Node} {r : Except NodeFault Transition}
    (h : wayFrom flow n r = .onto next) : Enterable flow next := by
  cases r with
  | error f => cases h
  | ok t => exact wayOut_enterable h

theorem startNode_enterable {flow : Flow} {n : Node} (h : flow.startNode? = some n) : Enterable flow n := by
  have htype := List.find?_some (p := fun m : Node => m.type == .start) h
  exact ⟨List.mem_of_find?_eq_some h, .inl (eq_of_beq htype)⟩

/-- No other handlers call. -/
theorem calls_api {n : Node} {m : Memory} {c : Http.Call} (h : (Handler.run n m).reached = .calling c) :
    n.type = .api := by
  have hcall := congrArg Visit.call (visit_calling (.failure (.flow "")) h)
  have hv := visit_cases n m (.failure (.flow ""))
  generalize visit n m (.failure (.flow "")) = v at hcall hv
  cases hv with
  | answered ht | unanswered ht => exact ht
  | _ => cases hcall

/-! ## What holds all along -/

/-- The run has the flow of its request and the executor that it was given, in that many blocks. -/
structure Stands (q : Request) (x : Executor) (w : Walk) (y : Executor) (depth : Nat) : Prop where
  flow : w.flow = q.flow
  settings : y.settings = x.settings
  program : y.program = x.program
  outside : w.outside = q.caller
  depth : w.blocks.length = depth

structure Standing.Sound (q : Request) (x : Executor) (m : Standing) : Prop extends
    Stands q x m.1.2 m.2 m.1.1.depth where
  place : ∀ stage, m.1.1 = .going stage → Enterable q.flow stage.node
  calling : ∀ n c, m.1.1 = .going (.calling n c) → n.type = .api
  cleared : ∀ e, m.1.1 = .ended e → m.2.locked = false ∧ (x.rules.Spares .active → m.2.activeNode = none)

section

variable {q : Request} {x y z : Executor} {w : Walk} {depth : Nat}

theorem Stands.keeps (h : Stands q x w y depth) (hk : Keeps { y with locked := false } { z with locked := false }) :
    Stands q x w z depth :=
  ⟨h.flow, hk.settings.trans h.settings, hk.program.trans h.program, h.outside, h.depth⟩

theorem Stands.holding (h : Stands q x w y depth) (heap : Heap) : Stands q x w { y with heap := heap } depth :=
  ⟨h.flow, h.settings, h.program, h.outside, h.depth⟩

theorem Stands.telling (h : Stands q x w y depth) (es : List Entry) : Stands q x (w.telling es) y depth :=
  ⟨h.flow, h.settings, h.program, h.outside, h.depth⟩

theorem Stands.handled (h : Stands q x w y depth) (n : Node) (part : Handled) : Stands q x (w.handled n part) y depth :=
  ⟨h.flow, h.settings, h.program, h.outside, h.depth⟩

theorem Stands.left (h : Stands q x w y (depth + 1)) : Stands q x w.left y depth := by
  refine ⟨h.flow, h.settings, h.program, (left_outside w).trans h.outside, ?_⟩
  rw [Walk.left, List.length_tail, h.depth, Nat.add_sub_cancel]

theorem Stands.executing (h : Stands q x w y depth) (n : Node) : Stands q x (w.executing n) y (depth + 1) := by
  refine ⟨h.flow, h.settings, h.program, (entering_outside _ _).trans h.outside, ?_⟩
  rw [Walk.executing, Walk.entering, List.length_cons]
  exact congrArg (· + 1) h.depth

theorem Stands.ended {e : Ended} (h : Stands q x w y 0) (hc : Clears y z) : Standing.Sound q x ((.ended e, w), z) := by
  refine ⟨h.keeps hc.keeps.unlocked, fun stage hs => (by cases hs), fun n c hs => (by cases hs), fun _ _ => ?_⟩
  refine ⟨hc.keeps.locked, fun hq => hc.inactive ?_⟩
  rw [Executor.rules, h.program]
  exact hq

/-- Whichever way a run goes. -/
theorem Stands.goes {r : Standing} {way : Way} (h : Stands q x w y 1) (hg : Goes w y r way)
    (hway : ∀ next, way = .onto next → Enterable q.flow next) : Standing.Sound q x r := by
  cases hg with
  | @ends e z hc => exact (h.telling [e.entry]).left.ended hc
  | raises hp hc => exact h.left.ended hc
  | @onto pace next z hp hk =>
    have hstands := h.keeps hk.unlocked
    have hnext := hway next rfl
    cases pace with
    | none =>
      refine ⟨hstands, fun stage hs => ?_, fun n c hs => (by cases hs), fun e hs => (by cases hs)⟩
      cases hs
      exact hnext
    | some seconds =>
      refine ⟨hstands, fun stage hs => ?_, fun n c hs => (by cases hs), fun e hs => (by cases hs)⟩
      cases hs
      exact hnext

/-- A turn keeps to what holds all along. -/
theorem Turns.sound {m r : Standing} {stage : Stage} {e : Event} (ht : Turns m.1.2 m.2 stage e r)
    (hm : m.1.1 = .going stage) (h : Standing.Sound q x m) : Standing.Sound q x r := by
  obtain ⟨⟨pr, w⟩, y⟩ := m
  cases hm
  have hstands : Stands q x w y (Progress.going stage).depth := h.toStands
  have hplace : Enterable q.flow stage.node := h.place stage rfl
  cases ht with
  | barred hb hg => exact hstands.goes hg (fun next hn => by cases hn)
  | @calls n c z hb hr hk =>
    refine ⟨?_, fun stage hs => ?_, fun n' c' hs => ?_, fun e hs => (by cases hs)⟩
    · exact (((hstands.executing n).handled n _).holding _).keeps hk.unlocked
    · cases hs
      exact hplace
    · cases hs
      exact calls_api hr
  | @visits n r hb hr hg =>
    refine (((hstands.executing n).handled n _).left.holding _).goes hg fun next hn => ?_
    rw [hstands.flow] at hn
    exact wayFrom_enterable hn
  | @resumes n c a r hg =>
    refine ((hstands.handled n _).left.holding _).goes hg fun next hn => ?_
    rw [hstands.flow] at hn
    exact wayFrom_enterable hn
  | wakes =>
    refine ⟨hstands, fun stage hs => ?_, fun n c hs => (by cases hs), fun e hs => (by cases hs)⟩
    cases hs
    exact hplace
  | disturbed hc => exact hstands.left.ended hc

/-! ## Runs -/

/-- A run ends at once, or arrives at its start node. -/
theorem begun_cases (q : Request) (x : Executor) :
    (q.flow.startNode? = none ∧ ∃ y,
      q.begun x =
        ((.ended (.finished ⟨runIdOf q.flow.id q.tag, .aborted, 0, [strandedEntry]⟩),
          ((Walk.initial q.caller q.tag q.flow q.seed).telling [strandedEntry]).left), y) ∧
        Clears { x with locked := true } y) ∨
    ∃ n y, q.flow.startNode? = some n ∧
      q.begun x =
        ((.going (.arriving n), (Walk.initial q.caller q.tag q.flow q.seed).begun (contextOf q.seed x.heap)), y) ∧
        Keeps { x with locked := true, heap := (contextOf q.seed x.heap).heap } y := by
  let w := Walk.initial q.caller q.tag q.flow q.seed
  cases hn : q.flow.startNode? with
  | none =>
    obtain ⟨y, hy, hc⟩ := begin_stranded (w := w) hn { x with locked := true }
    exact .inl ⟨rfl, y, hy, hc⟩
  | some n =>
    obtain ⟨y, hy, hk⟩ := begin_run (w := w) hn { x with locked := true }
    exact .inr ⟨n, y, rfl, hy, hk⟩

theorem begun_sound (q : Request) (x : Executor) : Standing.Sound q x (q.begun x) := by
  let w := Walk.initial q.caller q.tag q.flow q.seed
  have hstands : Stands q x w { x with locked := true } 1 :=
    ⟨rfl, rfl, rfl, Log.Scope.bind_before q.caller (.correlation (runIdOf q.flow.id q.tag)), rfl⟩
  rcases begun_cases q x with ⟨-, y, hy, hc⟩ | ⟨n, y, hn, hy, hk⟩
  · rw [hy]
    exact (hstands.telling [strandedEntry]).left.ended hc
  · rw [hy]
    refine ⟨?_, fun stage hs => ?_, fun n c hs => (by cases hs), fun e hs => (by cases hs)⟩
    · exact ⟨rfl, hk.settings, hk.program, hstands.outside, rfl⟩
    · cases hs
      exact startNode_enterable hn

/-- A course that has ended did so at once, or in a turn. -/
theorem course_last {s : Surroundings} {k : Nat} {e : Ended} (h : (q.course x s k).1.1 = .ended e) :
    (q.begun x).1.1 = .ended e ∨
      ∃ j < k, ∃ stage, (q.course x s j).1.1 = .going stage ∧ (q.course x s (j + 1)).1.1 = .ended e := by
  induction k with
  | zero => exact .inl h
  | succ k ih =>
    cases hk : (q.course x s k).1.1 with
    | going stage => exact .inr ⟨k, Nat.lt_succ_self k, stage, hk, h⟩
    | ended e' =>
      have hsame := course_ended q s hk
      rw [hsame] at h
      rcases ih h with hbegun | ⟨j, hj, stage, hgoing, hended⟩
      · exact .inl hbegun
      · exact .inr ⟨j, Nat.lt_succ_of_lt hj, stage, hgoing, hended⟩

/-- The turn of a course that goes on. -/
theorem course_turns {s : Surroundings} {k : Nat} {stage : Stage} (h : (q.course x s k).1.1 = .going stage) :
    Turns (q.course x s k).1.2 (q.course x s k).2 stage (s.event k stage) (q.course x s (k + 1)) := by
  rw [Request.course, turned_going s h]
  exact turn_cases s k stage _ _

theorem course_sound (q : Request) (x : Executor) (s : Surroundings) (k : Nat) :
    Standing.Sound q x (q.course x s k) := by
  induction k with
  | zero => exact begun_sound q x
  | succ k ih =>
    cases hk : (q.course x s k).1.1 with
    | ended e =>
      rw [course_ended q s hk]
      exact ih
    | going stage => exact (course_turns hk).sound hk ih

end

end StepFlow.Run
