/-
  StepFlow.Proofs.Run.Cleanup — nothing escapes a run, and every exit cleans up.

  Scripts, conditions, clients and callbacks may fail with anything, at any step. What a
  handler fails with becomes the last entry of an aborted run; only a pause raises out of one.
  Whichever way a run ends, it has left the blocks of its node and of itself, so both ids are
  what they were, the lock is released, and nothing is active.
  - Callbacks may do what they like, except set the signal themselves.

  Proved, for every flow, seed, whole number as budget and number as pacing:
  (1) `Turns.remaining`: every turn brings the end nearer; so `course_ends`.
  (2) `raised_by_pause`: a run raises only what one of its pauses has raised.
  (3) `failed_aborts`: where a handler fails, the run ends as aborted in the same turn.
-/

import StepFlow.Proofs.Run.Course

namespace StepFlow.Run

open Script (Memory)

/-! ## Failures -/

/-- The part of a handler that runs in a turn, unless the budget bars it. -/
def Standing.part? (m : Standing) : Stage → Event → Option Handled
  | .arriving n, .step =>
    if (m.2.settings.bar? m.2.heap m.1.2.steps).isNone then some (Handler.run n ⟨m.1.2.env, m.2.heap⟩) else none
  | .calling n c, .answer a => some (Handler.resume n c a ⟨m.1.2.env, m.2.heap⟩)
  | _, _ => none

/-- What an aborted run tells of a fault: an error of the flow by its message, another one by
    its text, or by its class if that is empty. -/
def errorText (f : NodeFault) : String :=
  "Error: " ++
    match f.crash? with
    | none => f.text
    | some c => if c.text = "" then c.className else c.text

theorem errorText_message (f : NodeFault) : errorText f = s!"Error: {f.message}" := by
  unfold errorText NodeFault.message
  cases hc : f.crash? with
  | none => rfl
  | some c =>
    show "Error: " ++ (if c.text = "" then c.className else c.text) = "Error: " ++ c.message
    unfold Crash.message
    by_cases ht : c.text = ""
    · rw [if_pos ht, if_pos (beq_iff_eq.mpr ht)]
    · rw [if_neg ht, if_neg (fun h => ht (beq_iff_eq.mp h))]

/-- A turn in which a handler fails ends the run. -/
theorem Turns.failed {m r : Standing} {stage : Stage} {e : Event} {h : Handled} {f : NodeFault}
    (ht : Turns m.1.2 m.2 stage e r) (hh : m.part? stage e = some h) (hf : h.reached = .failed f) :
    ∃ w, r.1.1 = .ended (.finished ((Ending.failed stage.node f).result w)) := by
  cases ht with
  | barred hb hg =>
    simp only [Standing.part?, hb] at hh
    cases hh
  | calls hb hr hk =>
    simp only [Standing.part?, hb] at hh
    cases hh
    rw [hr] at hf
    cases hf
  | visits hb hr hg =>
    simp only [Standing.part?, hb] at hh
    cases hh
    rw [hf] at hg
    cases hg with
    | ends hc => exact ⟨_, rfl⟩
  | resumes hg =>
    cases hh
    rw [hf] at hg
    cases hg with
    | ends hc => exact ⟨_, rfl⟩
  | wakes | disturbed => cases hh

/-! ## The end of a run -/

/-- No more turns than these are left. -/
def Progress.remaining (budget steps : Nat) : Progress → Nat
  | .going (.arriving _) => 3 * (budget - steps) + 1
  | .going (.pausing ..) => 3 * (budget - steps) + 2
  | .going (.calling ..) => 3 * (budget - steps) + 3
  | .ended _ => 0

def Standing.remaining (budget : Nat) (m : Standing) : Nat := m.1.1.remaining budget m.1.2.steps

theorem Goes.remaining {w : Walk} {x : Executor} {r : Standing} {way : Way} (h : Goes w x r way) (budget : Nat) :
    r.remaining budget ≤ 3 * (budget - w.steps) + 2 := by
  cases h with
  | ends hc | raises hp hc => exact Nat.zero_le _
  | @onto pace next y hp hk =>
    cases pace with
    | none => exact Nat.le_succ _
    | some seconds => exact Nat.le_refl _

/-- Every turn brings the end nearer. -/
theorem Turns.remaining {m r : Standing} {stage : Stage} {e : Event} {budget : Int}
    (ht : Turns m.1.2 m.2 stage e r) (hm : m.1.1 = .going stage) (hs : m.2.settings.maxSteps = .scalar (.int budget)) :
    r.remaining budget.toNat < m.remaining budget.toNat := by
  obtain ⟨⟨pr, w⟩, x⟩ := m
  cases hm
  have hopen : x.settings.bar? x.heap w.steps = none → w.steps < budget.toNat := fun hb => by
    have hlt : (w.steps : Int) < budget := (bar?_none hs).mp hb
    omega
  cases ht with
  | barred hb hg =>
    cases hg with
    | ends hc => exact Nat.succ_pos _
  | calls hb hr hk =>
    have hlt := hopen hb
    show 3 * (budget.toNat - (w.steps + 1)) + 3 < 3 * (budget.toNat - w.steps) + 1
    omega
  | visits hb hr hg =>
    have hlt := hopen hb
    have hrest : r.remaining budget.toNat ≤ 3 * (budget.toNat - (w.steps + 1)) + 2 := hg.remaining budget.toNat
    show r.remaining budget.toNat < 3 * (budget.toNat - w.steps) + 1
    omega
  | resumes hg =>
    have hrest : r.remaining budget.toNat ≤ 3 * (budget.toNat - w.steps) + 2 := hg.remaining budget.toNat
    show r.remaining budget.toNat < 3 * (budget.toNat - w.steps) + 3
    omega
  | wakes => exact Nat.lt_succ_self _
  | disturbed hc => exact Nat.succ_pos _

section

variable {q : Request} {x : Executor} {s : Surroundings} {budget : Int}

theorem begun_remaining (q : Request) (x : Executor) (budget : Nat) :
    Standing.remaining budget (q.begun x) ≤ 3 * budget + 1 := by
  rcases begun_cases q x with ⟨-, y, hy, -⟩ | ⟨n, y, -, hy, -⟩
  · rw [hy]
    exact Nat.zero_le _
  · rw [hy]
    exact Nat.le_refl _

theorem course_remaining (hs : x.settings.maxSteps = .scalar (.int budget)) (k : Nat) :
    (q.course x s k).remaining budget.toNat ≤ 3 * budget.toNat + 1 - k := by
  induction k with
  | zero => exact begun_remaining q x budget.toNat
  | succ k ih =>
    cases hk : (q.course x s k).1.1 with
    | ended e =>
      have hended : (q.course x s (k + 1)).remaining budget.toNat = 0 := by
        rw [course_ended q s hk, Standing.remaining, hk]
        rfl
      omega
    | going stage =>
      have hsettings := (course_sound q x s k).settings
      have hless := (course_turns hk).remaining hk (by rw [hsettings]; exact hs)
      omega

/-- Three turns for each step that the budget allows are enough. -/
theorem course_ends (hs : x.settings.maxSteps = .scalar (.int budget)) :
    ∃ e, (q.course x s (3 * budget.toNat + 1)).1.1 = .ended e := by
  have hzero := course_remaining (q := q) (s := s) hs (3 * budget.toNat + 1)
  cases hk : (q.course x s (3 * budget.toNat + 1)).1.1 with
  | ended e => exact ⟨e, rfl⟩
  | going stage =>
    rw [Standing.remaining, hk, Nat.sub_self] at hzero
    cases stage with
    | arriving | pausing | calling => cases hzero

/-! ## Raising -/

theorem Goes.returns {w v : Walk} {x y : Executor} {c : Crash} {way : Way} {pace : Option Float}
    (hp : x.settings.Paced pace) : ¬ Goes w x ((.ended (.raised c), v), y) way := by
  intro h
  cases h with
  | raises hpace hc =>
    rw [hp x.heap] at hpace
    cases hpace

theorem Turns.raised {w v : Walk} {x y : Executor} {stage : Stage} {e : Event} {c : Crash} {pace : Option Float}
    (h : Turns w x stage e ((.ended (.raised c), v), y)) (hp : x.settings.Paced pace) :
    ∃ n seconds, stage = .pausing n seconds ∧ e = .wake (.error c) := by
  cases h with
  | barred hb hg => exact absurd hg (Goes.returns hp)
  | visits hb hr hg => exact absurd hg (Goes.returns hp)
  | resumes hg => exact absurd hg (Goes.returns hp)
  | disturbed hc => exact ⟨_, _, rfl, rfl⟩

theorem begun_returns {c : Crash} : (q.begun x).1.1 ≠ .ended (.raised c) := by
  intro h
  rcases begun_cases q x with ⟨-, y, hy, -⟩ | ⟨n, y, -, hy, -⟩
  · rw [hy] at h
    cases h
  · rw [hy] at h
    cases h

/-- A run raises only what a pause has raised. -/
theorem raised_by_pause {pace : Option Float} (hp : x.settings.Paced pace) {k : Nat} {c : Crash}
    (h : (q.course x s k).1.1 = .ended (.raised c)) :
    ∃ j < k, ∃ n seconds, (q.course x s j).1.1 = .going (.pausing n seconds) ∧ s.pause j = .error c := by
  rcases course_last h with hbegun | ⟨j, hj, stage, hgoing, hended⟩
  · exact absurd hbegun begun_returns
  · have hturns := course_turns hgoing
    have hpaced : (q.course x s j).2.settings.Paced pace := by
      rw [(course_sound q x s j).settings]
      exact hp
    rcases hm : q.course x s (j + 1) with ⟨⟨pr, v⟩, y⟩
    rw [hm] at hended hturns
    cases hended
    obtain ⟨n, seconds, rfl, hevent⟩ := hturns.raised hpaced
    have hpause : s.pause j = .error c := Event.wake.inj hevent
    exact ⟨j, hj, n, seconds, hgoing, hpause⟩

theorem pause_raises {k : Nat} {n : Node} {seconds : Float} {c : Crash}
    (h : (q.course x s k).1.1 = .going (.pausing n seconds)) (hc : s.pause k = .error c) :
    (q.course x s (k + 1)).1.1 = .ended (.raised c) := by
  have hturns := course_turns h
  rw [Surroundings.event, hc] at hturns
  generalize q.course x s (k + 1) = r at hturns ⊢
  cases hturns with
  | disturbed hc => rfl

/-- Where a handler fails, the run ends as aborted in the same turn. -/
theorem failed_aborts {k : Nat} {stage : Stage} {h : Handled} {f : NodeFault}
    (hk : (q.course x s k).1.1 = .going stage) (hh : (q.course x s k).part? stage (s.event k stage) = some h)
    (hf : h.reached = .failed f) :
    ∃ r, (q.course x s (k + 1)).1.1 = .ended (.finished r) ∧ r.outcome = .aborted ∧
      r.entries.getLast? = some (entryOf stage.node (errorText f) .error) := by
  obtain ⟨w, hw⟩ := (course_turns hk).failed hh hf
  refine ⟨_, hw, rfl, ?_⟩
  rw [errorText_message]
  exact List.getLast?_concat

/-- A run that has ended has cleaned up. -/
theorem ended_clean (hq : x.rules.Spares .active) {k : Nat} {e : Ended} (h : (q.course x s k).1.1 = .ended e) :
    (q.course x s k).2.locked = false ∧ (q.course x s k).2.activeNode = none ∧
      (q.course x s k).1.2.scope = q.caller := by
  have hsound := course_sound q x s k
  obtain ⟨hlocked, hactive⟩ := hsound.cleared e h
  refine ⟨hlocked, hactive hq, ?_⟩
  have hblocks : (q.course x s k).1.2.blocks = [] := by
    have hdepth := hsound.depth
    rw [h] at hdepth
    exact List.length_eq_zero_iff.mp hdepth
  have houtside := hsound.outside
  rw [Walk.outside, hblocks] at houtside
  exact houtside

end

/-! ## Runs -/

/-- What becomes of a run that is accepted. -/
structure Concluded (q : Request) (x : Executor) (s : Surroundings) (budget : Nat) : Prop where
  accepted : (request q.caller q.tag q.flow q.seed).run x = (ofProgress (q.course x s 0).1, (q.course x s 0).2)
  driven : ∀ k stage, (q.course x s k).1.1 = .going stage →
    (Process.next ⟨(q.course x s k).1.2, stage⟩ (s.event k stage)).run (q.course x s k).2 =
      (ofProgress (q.course x s (k + 1)).1, (q.course x s (k + 1)).2)
  ends : ∃ e, (q.course x s (3 * budget + 1)).1.1 = .ended e
  /-- It returns a result, unless a pause raises. -/
  returns : ∀ k c, (q.course x s k).1.1 = .ended (.raised c) →
    ∃ j < k, ∃ n seconds, (q.course x s j).1.1 = .going (.pausing n seconds) ∧ s.pause j = .error c
  raises : ∀ k n seconds c, (q.course x s k).1.1 = .going (.pausing n seconds) → s.pause k = .error c →
    (q.course x s (k + 1)).1.1 = .ended (.raised c)
  aborts : ∀ k stage h f, (q.course x s k).1.1 = .going stage →
    (q.course x s k).part? stage (s.event k stage) = some h → h.reached = .failed f →
      ∃ r, (q.course x s (k + 1)).1.1 = .ended (.finished r) ∧ r.outcome = .aborted ∧
        r.entries.getLast? = some (entryOf stage.node (errorText f) .error)
  /-- However it has ended, the lock is free, nothing is active, and both ids are what they were. -/
  clean : ∀ k e, (q.course x s k).1.1 = .ended e →
    (q.course x s k).2.locked = false ∧ (q.course x s k).2.activeNode = none ∧
      (q.course x s k).1.2.scope = q.caller

/-- Nothing escapes a run but what a pause raises, and every exit cleans up. -/
theorem every_run_concludes {x : Executor} {budget : Int} {p : Scalar} {seconds : Float} (hx : x.locked = false)
    (hs : x.settings.maxSteps = .scalar (.int budget)) (hp : x.settings.pacing = .scalar p) (hn : p.isNumber = true)
    (hd : Settings.positive p = true → Settings.seconds p = .ok seconds) (hq : x.rules.Spares .active) (q : Request)
    (s : Surroundings) : Concluded q x s budget.toNat := by
  have hpaced := paced_number hp hn hd
  refine ⟨course_zero q s hx, ?_, course_ends hs, ?_, ?_, ?_, ?_⟩
  · intro k stage hk
    exact course_next q s hk
  · intro k c hk
    exact raised_by_pause hpaced hk
  · intro k n seconds c hk hc
    exact pause_raises hk hc
  · intro k stage h f hk hh hf
    exact failed_aborts hk hh hf
  · intro k e hk
    exact ended_clean hq hk

/-- A client fails without a text, and a callback at every other delivery; in other surroundings a pause raises. -/
theorem conclusion_of_a_failing_call :
    let start : Node := ⟨"s", .start, .origin, ⟨"Start", none, none, none, none⟩⟩
    let call : Node := ⟨"a", .api, .origin, ⟨"Call", none, none, none, some ⟨"http://x", .get, none, none⟩⟩⟩
    let q : Request := ⟨⟨"outer", "n"⟩, "t", ⟨"f", "Call", none, [start, call], [⟨"c", "s", "a", none⟩]⟩, []⟩
    let empty : Executor := .create ⟨.scalar (.int 5), .scalar (.int 10)⟩ ⟨0, []⟩ .empty
    let board := empty.board.subscribe .logs (.callback "broken")
    let x : Executor :=
      { empty with
        board := board.subscribe .active (.callback "broken")
        program := fun _ => [.failAt fun k => k % 2 == 1] }
    let s : Surroundings := ⟨fun _ => .failure (.crash ⟨"ValueError", ""⟩), fun _ => .ok ()⟩
    let disturbed : Surroundings := ⟨s.answer, fun _ => .error ⟨"RuntimeError", "no rest"⟩⟩
    (∃ r, (q.course x s 4).1.1 = .ended (.finished r) ∧
        r.entries.getLast? = some ⟨"a", "Call", "Error: ValueError", .error⟩) ∧
      Concluded q x s 10 ∧
      (q.course x disturbed 2).1.1 = .ended (.raised ⟨"RuntimeError", "no rest"⟩) ∧
      Concluded q x disturbed 10 := by
  intro start call q empty board x s disturbed
  have hq : x.rules.Spares .active := fun name a ha => by
    rw [List.mem_singleton.mp ha]
    rfl
  have hs : x.settings.maxSteps = .scalar (.int 10) := rfl
  exact ⟨⟨_, rfl, rfl⟩, every_run_concludes rfl hs rfl rfl (fun _ => rfl) hq q s, rfl,
    every_run_concludes rfl hs rfl rfl (fun _ => rfl) hq q disturbed⟩

end StepFlow.Run
