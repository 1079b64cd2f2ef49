/-
  StepFlow.Proofs.Run.Stillness — runs in which nothing changes.

  Where no script runs and no call is made (`Node.Still`), the variables of a run stay what they
  are, and so does all that they hold. Conditions only make containers and NaNs, which play no
  part for variables that mention nothing but what there is (`Memory.Closed`). So a node is left
  the same way each time, and each stage of the run decides the next one.

  Proved, for every closed memory, budget and pacing:
  (1) `contextOf_closed`: the memory of a run is closed if the one that it is given is.
  (2) `run_again`: the handler of a still node does in a memory that it has been in before, on
      a larger heap, what it did then.
  (3) `course_stage?`: a stage of a run through still nodes decides the next one, unless the
      budget is spent or a pause raises.
-/

import StepFlow.Proofs.Run.Budgets
import StepFlow.Proofs.Script.Repetition

namespace StepFlow

/-- The node runs no script and makes no call. -/
structure Node.Still (n : Node) : Prop where
  script : n.type = .script → Run.nonblank? n.data.script = none
  api : n.type = .api → n.data.apiConfig = none

namespace Run

open Script (Memory)

/-! ## The memory of a run -/

theorem contextOf_closed {seed : Env} {h : Heap} (hm : Memory.Closed ⟨seed, h⟩) : (contextOf seed h).Closed := by
  have hnew : ∀ c, (contextOf seed h).heap.cell h.cells.size = c → c = .object [] := fun c hc => by
    rw [← hc]
    exact Pairing.cell_alloc_new h (.object [])
  have hold : ∀ r, r ≠ h.cells.size → (contextOf seed h).heap.cell r = h.cell r := fun r hr =>
    Pairing.cell_alloc_ne hr
  refine ⟨fun name v hv => ?_, fun r xs hr v hv => ?_, fun r es hr e he => ?_⟩
  · unfold contextOf at hv
    rw [Env.get?_set] at hv
    split at hv
    · cases hv
      show h.cells.size < (h.cells.push (.object [])).size
      rw [Array.size_push]
      exact Nat.lt_succ_self _
    · exact (hm.vars name v hv).extends (h.extends_alloc _)
  · by_cases hsize : r = h.cells.size
    · subst hsize
      cases hnew _ hr
    · rw [hold r hsize] at hr
      exact (hm.items r xs hr v hv).extends (h.extends_alloc _)
  · by_cases hsize : r = h.cells.size
    · subst hsize
      cases hnew _ hr
      cases he
    · rw [hold r hsize] at hr
      obtain ⟨hkey, hvalue⟩ := hm.entries r es hr e he
      exact ⟨hkey.extends (h.extends_alloc _), hvalue.extends (h.extends_alloc _)⟩

/-- The variables are the same, and the heap has at most grown. -/
structure Rests (base m : Memory) : Prop where
  env : m.env = base.env
  heap : base.heap.Extends m.heap

theorem Rests.refl (m : Memory) : Rests m m := ⟨rfl, .refl m.heap⟩

section

variable {n : Node} {base m : Memory}

theorem decision_again (hb : base.Closed) (hm : Rests base m) :
    (Handler.decision n m).reached = (Handler.decision n base).reached ∧ Rests base (Handler.decision n m).memory := by
  obtain ⟨env, heap⟩ := m
  obtain ⟨henv, hheap⟩ := hm
  dsimp only at henv hheap
  subst henv
  have hkeeps := (Script.decision_keeps n ⟨base.env, heap⟩).heap
  unfold Handler.decision at hkeeps ⊢
  cases hc : nonblank? n.data.condition with
  | none => exact ⟨rfl, rfl, hheap⟩
  | some text =>
    have hends := Script.evaluate_again hb hheap text
    simp only [hc] at hkeeps ⊢
    generalize (Script.evaluate text base.env).run.run base.heap = before at hends ⊢
    generalize (Script.evaluate text base.env).run.run heap = again at hends hkeeps ⊢
    cases hends with
    | @intro _ _ h k p hgrows hmatches hagree =>
      have hlabels := hgrows.labels
      have hgrown := hheap.labels
      cases hagree with
      | error f => exact ⟨rfl, rfl, hheap.keeps.trans hkeeps, by dsimp only; omega⟩
      | ok hvalues =>
        refine ⟨?_, rfl, hheap.keeps.trans hkeeps, ?_⟩
        · simp only [decided, hmatches.truth hvalues]
        · simp only [decided]
          omega

/-- The handler of a still node does again what it did, and leaves what there was. -/
theorem run_again (hn : n.Still) (hb : base.Closed) (hm : Rests base m) :
    (Handler.run n m).reached = (Handler.run n base).reached ∧ Rests base (Handler.run n m).memory := by
  unfold Handler.run
  cases ht : n.type with
  | start | task | finish => exact ⟨rfl, hm⟩
  | decision => exact decision_again hb hm
  | script =>
    simp only [Handler.script, hn.script ht]
    exact ⟨trivial, hm⟩
  | api =>
    simp only [Handler.api, hn.api ht]
    exact ⟨trivial, hm⟩

theorem still_silent (hn : n.Still) (c : Http.Call) : (Handler.run n m).reached ≠ .calling c := by
  intro hc
  have ht := calls_api hc
  simp only [Handler.run, ht, Handler.api, hn.api ht] at hc
  cases hc

end

/-! ## Runs through still nodes -/

/-- A run has no call out, and the memory that it began with. -/
structure Resting (base : Memory) (m : Standing) : Prop where
  memory : Rests base ⟨m.1.2.env, m.2.heap⟩
  silent : ∀ n c, m.1.1 ≠ .going (.calling n c)

theorem Goes.rests {base : Memory} {w : Walk} {x : Executor} {r : Standing} {way : Way} (h : Goes w x r way)
    (hm : Rests base ⟨w.env, x.heap⟩) {stage : Stage} (hr : r.1.1 = .going stage) : Resting base r := by
  cases h with
  | ends hc | raises hp hc => cases hr
  | @onto pace next y hp hk =>
    refine ⟨?_, fun n c hc => ?_⟩
    · rw [hk.heap]
      exact hm
    · cases pace <;> cases hc

theorem Turns.rests {base : Memory} {w : Walk} {x : Executor} {stage stage' : Stage} {e : Event} {r : Standing}
    (ht : Turns w x stage e r) (hn : stage.node.Still) (hb : base.Closed) (hm : Rests base ⟨w.env, x.heap⟩)
    (hs : ∀ n c, stage ≠ .calling n c) (hr : r.1.1 = .going stage') : Resting base r := by
  cases ht with
  | barred _ hg =>
    cases hg with
    | ends hc => cases hr
  | calls _ hc _ => exact absurd hc (still_silent hn _)
  | visits _ _ hg => exact hg.rests (run_again hn hb hm).2 hr
  | resumes _ => exact absurd rfl (hs _ _)
  | wakes => exact ⟨hm, fun n c hc => by cases hc⟩
  | disturbed _ => cases hr

/-- The stage of a run that goes on. -/
def Progress.stage? : Progress → Option Stage
  | .going stage => some stage
  | .ended _ => none

/-- The stage of a run that goes a way, if it goes on. -/
def Way.stage? (settings : Settings) (heap : Heap) : Way → Option Stage
  | .ends _ => none
  | .onto next => (settings.pause? heap).toOption.map (stageBefore · next)

/-- The stage after another one, in a run that still has the memory it began with. -/
def stageAfter (flow : Flow) (settings : Settings) (base : Memory) : Stage → Option Stage
  | .arriving n => (wayFrom flow n (resumedResult (Handler.run n base).reached)).stage? settings base.heap
  | .pausing n _ => some (.arriving n)
  | .calling .. => none

/-- Whether there is a pause, and how long it is, does not depend on what the heap holds. -/
theorem pause?_anywhere (s : Settings) (h k : Heap) : (s.pause? h).toOption = (s.pause? k).toOption := by
  unfold Settings.pause?
  cases s.pacing with
  | scalar p => rfl
  | ref r => rfl

theorem Goes.stage? {w : Walk} {x : Executor} {r : Standing} {way : Way} (h : Goes w x r way) (heap : Heap) :
    r.1.1.stage? = way.stage? x.settings heap := by
  cases h with
  | ends hc => rfl
  | onto hp hk =>
    rw [Way.stage?, pause?_anywhere x.settings heap x.heap, hp]
    rfl
  | raises hp hc =>
    rw [Way.stage?, pause?_anywhere x.settings heap x.heap, hp]
    rfl

section

variable {q : Request} {x : Executor} {s : Surroundings} {budget : Int} {k : Nat}

/-- All along, a run through still nodes has the memory that it began with. -/
theorem course_rests (hq : ∀ n ∈ q.flow.nodes, n.Still) (hb : (contextOf q.seed x.heap).Closed) {stage : Stage}
    (hk : (q.course x s k).1.1 = .going stage) : Resting (contextOf q.seed x.heap) (q.course x s k) := by
  induction k generalizing stage with
  | zero =>
    rw [Request.course] at hk ⊢
    rcases begun_cases q x with ⟨-, y, hy, -⟩ | ⟨n, y, -, hy, hkeeps⟩
    · rw [hy] at hk
      cases hk
    · rw [hy]
      refine ⟨?_, fun n c hc => by cases hc⟩
      rw [hkeeps.heap]
      exact .refl _
  | succ k ih =>
    cases hj : (q.course x s k).1.1 with
    | ended e =>
      rw [course_ended q s hj, hj] at hk
      cases hk
    | going before =>
      have hrests := ih hj
      have hnode := ((course_sound q x s k).place before hj).1
      refine (course_turns hj).rests (hq _ hnode) hb hrests.memory (fun n c hc => ?_) hk
      exact hrests.silent n c (hc ▸ hj)

/-- A stage of a run through still nodes decides the next one. -/
theorem course_stage? (hs : x.settings.maxSteps = .scalar (.int budget)) (hq : ∀ n ∈ q.flow.nodes, n.Still)
    (hb : (contextOf q.seed x.heap).Closed) (hx : ∀ n, ¬ q.Exhausts x s budget k n)
    (hp : ∀ n seconds, (q.course x s k).1.1 = .going (.pausing n seconds) → s.pause k = .ok ()) :
    (q.course x s (k + 1)).1.1.stage? =
      (q.course x s k).1.1.stage?.bind (stageAfter q.flow x.settings (contextOf q.seed x.heap)) := by
  cases hk : (q.course x s k).1.1 with
  | ended e =>
    rw [course_ended q s hk, hk]
    rfl
  | going stage =>
    have hrests := course_rests hq hb hk
    have hsound := course_sound q x s k
    have hnode := hq _ (hsound.place stage hk).1
    have hturns := course_turns hk
    cases stage with
    | calling n c => exact absurd hk (hrests.silent n c)
    | pausing n seconds =>
      rw [Surroundings.event, hp n seconds hk] at hturns
      generalize q.course x s (k + 1) = r at hturns ⊢
      cases hturns with
      | wakes => rfl
    | arriving n =>
      have hopen : (q.course x s k).2.settings.bar? (q.course x s k).2.heap (q.course x s k).1.2.steps = none := by
        refine (bar?_none (hsound.settings.symm ▸ hs)).mpr (Int.not_le.mp fun hspent => hx n ⟨hk, hspent⟩)
      have hstill : n.Still := hnode
      have hagain := (run_again hstill hb hrests.memory).1
      have hturns : Turns _ _ (.arriving n) .step _ := hturns
      rw [Progress.stage?, Option.bind_some, stageAfter, ← hsound.settings, ← hsound.flow, ← hagain]
      generalize q.course x s (k + 1) = r at hturns ⊢
      cases hturns with
      | barred hb hg =>
        rw [hopen] at hb
        cases hb
      | calls hb hc hkeeps => exact absurd hc (still_silent hnode _)
      | visits hb hc hg => exact hg.stage? _

end

end Run

end StepFlow
