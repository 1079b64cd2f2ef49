/-
  StepFlow.Proofs.Run.Driving — a run that is driven to its end makes its tour.

  The surroundings answer each call from their list, let each pause pass, and may ask for
  another run in one, which is turned down. So the world changes with the tour alone: the calls
  of its visits are made in order, each takes an answer, and there is a pause before every node
  that a visit leads to.

  Proved:
  (1) `drive_tour`: from an arrival on, for every tour and every surroundings, with room for
      three steps a visit.
  (2) `run_tour`, `run_stranded`: for whole runs, whose budget is a whole number and whose
      pacing a number.
-/

import StepFlow.Proofs.Run.Steps
import StepFlow.Run.Drive

namespace StepFlow.Run

open Script (Memory)

/-! ## The surroundings -/

theorem world_bind {α β : Type} (a : StateM World α) (k : α → StateM World β) (u : World) :
    (a >>= k).run u = (k (a.run u).1).run (a.run u).2 := rfl

/-- One event of a run that goes on. -/
theorem drive_next (attempt : Option Attempt) (room : Nat) (p : Process) (u : World) :
    (drive attempt (room + 1) (.inl p)).run u =
      let r := (await attempt p).run u
      let q := (p.next r.1).run r.2.executor
      (drive attempt room q.1).run { r.2 with executor := q.2 } := rfl

theorem drive_arrive (attempt : Option Attempt) (room : Nat) (w : Walk) (n : Node) (u : World) :
    (drive attempt (room + 1) (.inl ⟨w, .arriving n⟩)).run u =
      (drive attempt room (ofProgress (((arrive n).run w).run u.executor).1)).run
        { u with executor := (((arrive n).run w).run u.executor).2 } := rfl

theorem drive_ended (attempt : Option Attempt) (room : Nat) (e : Ended) (u : World) :
    (drive attempt room (.inr e)).run u = (some e, u) := by
  cases room <;> rfl

theorem drive_ends (attempt : Option Attempt) {pace : Option Float} (room : Nat) {w : Walk} {x : Executor}
    {r : (Progress × Walk) × Executor} {e : Ending} (h : Takes pace w x r (.ends e)) (u : World) :
    (drive attempt room (ofProgress r.1)).run u = (some (.finished (e.result w)), u) := by
  rw [h.1]
  exact drive_ended attempt room _ u

/-- A pause that passes is kept; what is asked for in it is turned down. -/
theorem rest_some (a : Attempt) (scope : Log.Scope) (seconds : Float) (u : World) :
    (rest (some a) scope seconds).run u =
      ((if (u.pauses ++ [seconds]).length = a.pause then do
          match ← onExecutor (request scope a.tag a.flow []) with
          | .inr (.finished r) => modify fun w => { w with attempts := w.attempts ++ [(r, w.executor.locked)] }
          | _ => pure ()
        else pure () : StateM World Unit).run { u with pauses := u.pauses ++ [seconds] }) := rfl

theorem rest_run (attempt : Option Attempt) (scope : Log.Scope) (seconds : Float) {u : World}
    (h : u.executor.locked = true) :
    ∃ x as, (rest attempt scope seconds).run u =
        ((), { u with pauses := u.pauses ++ [seconds], executor := x, attempts := u.attempts ++ as }) ∧
      Keeps u.executor x ∧ ∀ a ∈ as, a = (.rejected, true) := by
  cases attempt with
  | none => exact ⟨u.executor, [], by rw [List.append_nil]; rfl, .refl _, by simp⟩
  | some a =>
    rw [rest_some]
    by_cases hd : (u.pauses ++ [seconds]).length = a.pause
    · rw [if_pos hd, world_bind]
      have hon : (onExecutor (request scope a.tag a.flow [])).run { u with pauses := u.pauses ++ [seconds] } =
          (.inr (.finished .rejected),
            { u with pauses := u.pauses ++ [seconds], executor := refused scope a.flow u.executor }) := by
        have hreq := request_run scope a.tag a.flow [] u.executor
        rw [if_pos h] at hreq
        show (((request scope a.tag a.flow []).run u.executor).1,
          ({ u with pauses := u.pauses ++ [seconds],
                    executor := ((request scope a.tag a.flow []).run u.executor).2 } : World)) = _
        rw [hreq]
      rw [hon, ← h]
      exact ⟨_, [(.rejected, u.executor.locked)], rfl, refused_keeps scope a.flow u.executor, by simp⟩
    · rw [if_neg hd]
      exact ⟨u.executor, [], by rw [List.append_nil]; rfl, .refl _, by simp⟩

/-- Before the next node, a pause passes if there are pauses. -/
theorem drive_pause (attempt : Option Attempt) (pace : Option Float) (w : Walk) (next : Node) {u : World}
    (h : u.executor.locked = true) :
    ∃ spent x as, spent ≤ 1 ∧ Keeps u.executor x ∧ (∀ a ∈ as, a = (.rejected, true)) ∧
      ∀ room, (drive attempt (room + spent) (.inl ⟨w, stageBefore pace next⟩)).run u =
        (drive attempt room (.inl ⟨w, .arriving next⟩)).run
          { u with pauses := u.pauses ++ pace.toList, executor := x, attempts := u.attempts ++ as } := by
  cases pace with
  | none =>
    refine ⟨0, u.executor, [], Nat.zero_le 1, .refl _, by simp, fun room => ?_⟩
    simp only [Option.toList_none, List.append_nil]
    rfl
  | some seconds =>
    obtain ⟨x, as, hx, hk, hr⟩ := rest_run attempt w.scope seconds h
    refine ⟨1, x, as, Nat.le_refl 1, hk, hr, fun room => ?_⟩
    rw [drive_next]
    have hawait : (await attempt ⟨w, stageBefore (some seconds) next⟩).run u =
        (.wake (.ok ()), ((rest attempt w.scope seconds).run u).2) := rfl
    rw [hawait, hx]
    rfl

/-- A visit takes one step, or two if it calls. -/
theorem drive_visit (attempt : Option Attempt) {pace : Option Float} {l : Leg} {w : Walk} {u : World}
    (hp : u.executor.settings.Paced pace) (hm : l.before = ⟨w.env, u.executor.heap⟩)
    (ha : l.answer = (Http.nextAnswer u.answers).1)
    (hb : u.executor.settings.bar? u.executor.heap w.steps = none) :
    ∃ spent r, spent ≤ 2 ∧
      Takes pace (w.visited l) { u.executor with heap := l.after.heap } r (l.way w.flow) ∧
      ∀ room, (drive attempt (room + spent) (.inl ⟨w, .arriving l.node⟩)).run u =
        (drive attempt room (ofProgress r.1)).run
          { u with answers := l.unused u.answers, calls := u.calls ++ l.visit.call.toList, executor := r.2 } := by
  cases hc : l.visit.call with
  | none =>
    refine ⟨1, ((arrive l.node).run w).run u.executor, by omega, silent_visit hp hm hb hc, fun room => ?_⟩
    rw [drive_arrive]
    simp only [Leg.unused, hc, Option.toList_none, List.append_nil]
  | some c =>
    obtain ⟨v, y, hy, -, hv⟩ := calling_visit hp hm hb hc
    refine ⟨2, ((handle l.node (Handler.resume l.node c l.answer)).run v).run y, by omega, hv y (.refl y),
      fun room => ?_⟩
    rw [show room + 2 = room + 1 + 1 from rfl, drive_arrive, hy]
    simp only [Leg.unused, hc, Option.toList_some, ha]
    rfl

/-! ## Tours -/

/-- The pauses of visits: one after each that leads on. -/
def pausesOf (pace : Option Float) (flow : Flow) (ls : List Leg) : List Float :=
  ls.flatMap fun l => if l.leads flow then pace.toList else []

/-- What visits do to the world, apart from the lock and the answers that they take. -/
structure Toured (pace : Option Float) (flow : Flow) (m : Memory) (ls : List Leg) (u v : World) : Prop where
  calls : v.calls = u.calls ++ ls.filterMap (·.visit.call)
  pauses : v.pauses = u.pauses ++ pausesOf pace flow ls
  attempts : ∃ as, v.attempts = u.attempts ++ as ∧ ∀ a ∈ as, a = (.rejected, true)
  settings : v.executor.settings = u.executor.settings
  program : v.executor.program = u.executor.program
  heap : v.executor.heap = (afterAll m ls).heap

theorem Toured.cons {pace : Option Float} {flow : Flow} {m : Memory} {l : Leg} {ls : List Leg} {u v t : World}
    (h : Toured pace flow m [l] u v) (h' : Toured pace flow l.after ls v t) : Toured pace flow m (l :: ls) u t := by
  obtain ⟨as, has, hr⟩ := h.attempts
  obtain ⟨bs, hbs, hr'⟩ := h'.attempts
  refine ⟨?_, ?_, ⟨as ++ bs, by rw [hbs, has, List.append_assoc], ?_⟩, h'.settings.trans h.settings,
    h'.program.trans h.program, h'.heap⟩
  · rw [h'.calls, h.calls, List.append_assoc, ← List.filterMap_append]
    rfl
  · rw [h'.pauses, h.pauses, List.append_assoc, pausesOf, pausesOf, ← List.flatMap_append]
    rfl
  · intro a ha
    rcases List.mem_append.mp ha with ha | ha
    · exact hr a ha
    · exact hr' a ha

theorem filterMap_call (l : Leg) : [l].filterMap (·.visit.call) = l.visit.call.toList := by
  cases hc : l.visit.call <;> simp [hc]

/-- The result of a run that goes on with these visits. -/
def Walk.result (w : Walk) (ls : List Leg) (e : Ending) : Result :=
  ⟨w.runId, e.outcome, w.steps + ls.length, w.entries ++ ls.flatMap Leg.entries ++ [e.entry]⟩

theorem result_nil (w : Walk) (e : Ending) : w.result [] e = e.result w := by simp [Walk.result, Ending.result]

theorem result_cons (w : Walk) (l : Leg) (ls : List Leg) (e : Ending) :
    w.result (l :: ls) e = (w.visited l).result ls e := by
  simp only [Walk.result, Walk.visited, List.length_cons, List.flatMap_cons, List.append_assoc]
  congr 1
  omega

theorem drive_barred (attempt : Option Attempt) (pace : Option Float) {n : Node} {w : Walk} {u : World} {f : NodeFault}
    (hb : u.executor.settings.bar? u.executor.heap w.steps = some f) :
    ∃ v, Toured pace w.flow ⟨w.env, u.executor.heap⟩ [] u v ∧ v.executor.locked = false ∧
      ∀ room, (drive attempt (room + 1) (.inl ⟨w, .arriving n⟩)).run u =
        (some (.finished (w.result [] (.barred n f))), v) := by
  have ht : Takes pace w u.executor _ (.ends (.barred n f)) := (arrive_barred hb).takes_ending
  refine ⟨{ u with executor := (((arrive n).run w).run u.executor).2 }, ?_, ht.2.locked, fun room => ?_⟩
  · exact ⟨by simp, by simp [pausesOf], ⟨[], by simp⟩, ht.2.settings, ht.2.program, ht.2.heap⟩
  · rw [drive_arrive, drive_ends attempt room ht, result_nil]

section

variable {pace : Option Float} {l : Leg} {w : Walk} {u : World}

/-- A visit that ends the run does so at once. -/
theorem drive_last (attempt : Option Attempt) {e : Ending} (hp : u.executor.settings.Paced pace)
    (hm : l.before = ⟨w.env, u.executor.heap⟩) (ha : l.answer = (Http.nextAnswer u.answers).1)
    (hb : u.executor.settings.bar? u.executor.heap w.steps = none) (hw : l.way w.flow = .ends e) :
    ∃ spent v, spent ≤ 2 ∧ Toured pace w.flow l.before [l] u v ∧ v.executor.locked = false ∧
      ∀ room, (drive attempt (room + spent) (.inl ⟨w, .arriving l.node⟩)).run u =
        (some (.finished (w.result [l] e)), v) := by
  obtain ⟨spent, r, hspent, ht, hd⟩ := drive_visit attempt hp hm ha hb
  rw [hw] at ht
  refine ⟨spent,
    { u with answers := l.unused u.answers, calls := u.calls ++ l.visit.call.toList, executor := r.2 }, hspent, ?_,
    ht.2.locked, fun room => ?_⟩
  · exact ⟨by rw [filterMap_call], by simp [pausesOf, Leg.leads, hw], ⟨[], by simp⟩, ht.2.settings, ht.2.program,
      ht.2.heap⟩
  · rw [hd, drive_ends attempt room ht, result_cons, result_nil]

/-- A visit that leads on to a node comes there, after a pause if there are pauses. -/
theorem drive_onward (attempt : Option Attempt) {next : Node} (hp : u.executor.settings.Paced pace)
    (hl : u.executor.locked = true) (hm : l.before = ⟨w.env, u.executor.heap⟩)
    (ha : l.answer = (Http.nextAnswer u.answers).1)
    (hb : u.executor.settings.bar? u.executor.heap w.steps = none) (hw : l.way w.flow = .onto next) :
    ∃ spent v, spent ≤ 3 ∧ Toured pace w.flow l.before [l] u v ∧ v.executor.locked = true ∧
      v.answers = l.unused u.answers ∧
      ∀ room, (drive attempt (room + spent) (.inl ⟨w, .arriving l.node⟩)).run u =
        (drive attempt room (.inl ⟨w.visited l, .arriving next⟩)).run v := by
  obtain ⟨spent, r, hspent, ht, hd⟩ := drive_visit attempt hp hm ha hb
  rw [hw] at ht
  let v : World :=
    { u with answers := l.unused u.answers, calls := u.calls ++ l.visit.call.toList, executor := r.2 }
  have hv : v.executor.locked = true := ht.2.locked.trans hl
  obtain ⟨rested, x, as, hrested, hk, has, hpause⟩ := drive_pause attempt pace (w.visited l) next hv
  have hkeeps := ht.2.trans hk
  refine ⟨rested + spent, { v with pauses := v.pauses ++ pace.toList, executor := x, attempts := v.attempts ++ as },
    by omega, ?_, hkeeps.locked.trans hl, rfl, fun room => ?_⟩
  · exact ⟨by rw [filterMap_call], by simp [v, pausesOf, Leg.leads, hw], ⟨as, rfl, has⟩, hkeeps.settings,
      hkeeps.program, hkeeps.heap⟩
  · rw [← Nat.add_assoc, hd, ht.1]
    exact hpause room

end

/-- The run of a tour ends, as the tour does. -/
theorem drive_tour {s : Settings} {flow : Flow} {k : Nat} {n : Node} {m : Memory} {as : List Http.Answer}
    {ls : List Leg} {e : Ending} (h : Tour s flow k n m as ls e) (attempt : Option Attempt) {pace : Option Float}
    (hp : s.Paced pace) {w : Walk} {u : World} {room : Nat} (hw : w.flow = flow ∧ w.steps = k)
    (hm : m = ⟨w.env, u.executor.heap⟩) (hs : u.executor.settings = s) (hl : u.executor.locked = true)
    (ha : u.answers = as) (hr : 3 * ls.length + 1 ≤ room) :
    ∃ v, (drive attempt room (.inl ⟨w, .arriving n⟩)).run u = (some (.finished (w.result ls e)), v) ∧
      Toured pace flow m ls u v ∧ v.executor.locked = false := by
  induction h generalizing w u room with
  | barred hb =>
    obtain ⟨rfl, rfl⟩ := hw
    subst hs hm
    obtain ⟨v, hv, hlock, hd⟩ := drive_barred attempt pace hb
    obtain ⟨room, rfl⟩ := Nat.exists_eq_add_of_le' hr
    exact ⟨v, hd room, hv, hlock⟩
  | @last k n m as e hb hway =>
    obtain ⟨rfl, rfl⟩ := hw
    subst hs hm ha
    obtain ⟨spent, v, hspent, hv, hlock, hd⟩ := drive_last attempt hp rfl rfl hb hway
    have hroom : spent ≤ room := by
      rw [List.length_singleton] at hr
      omega
    obtain ⟨room, rfl⟩ := Nat.exists_eq_add_of_le' hroom
    exact ⟨v, hd room, hv, hlock⟩
  | @onward k n next m as ls e hb hway htour ih =>
    obtain ⟨rfl, rfl⟩ := hw
    subst hs hm ha
    obtain ⟨spent, v, hspent, hv, hlock, has, hd⟩ := drive_onward attempt hp hl rfl rfl hb hway
    rw [List.length_cons] at hr
    have hroom : spent ≤ room := by omega
    obtain ⟨room, rfl⟩ := Nat.exists_eq_add_of_le' hroom
    let l := legAt n ⟨w.env, u.executor.heap⟩ u.answers
    have hwalk : (w.visited l).flow = w.flow ∧ (w.visited l).steps = w.steps + 1 := ⟨rfl, rfl⟩
    have hmem : l.after = ⟨(w.visited l).env, v.executor.heap⟩ := by
      rw [hv.heap]
      rfl
    have hrest : 3 * ls.length + 1 ≤ room := by omega
    obtain ⟨t, ht, htoured, hunlocked⟩ := ih hwalk hmem hv.settings hlock has hrest
    refine ⟨t, ?_, hv.cons htoured, hunlocked⟩
    rw [result_cons]
    exact (hd room).trans ht

/-! ## Runs -/

theorem runToEnd_run (attempt : Option Attempt) (caller : Log.Scope) (tag : String) (flow : Flow) (seed : Env)
    (u : World) :
    (runToEnd attempt caller tag flow seed).run u =
      let r := (request caller tag flow seed).run u.executor
      (drive attempt r.2.settings.room r.1).run { u with executor := r.2 } := rfl

theorem room_int {s : Settings} {budget : Int} (hs : s.maxSteps = .scalar (.int budget)) :
    s.room = 3 * (budget.toNat + 2) := by
  unfold Settings.room
  rw [hs]
  rfl

section

variable {u : World} {flow : Flow} (attempt : Option Attempt) (caller : Log.Scope) (tag : String) (seed : Env)

/-- A run without a start node ends at once. -/
theorem run_stranded (hu : u.executor.locked = false) (hn : flow.startNode? = none) :
    ∃ y, (runToEnd attempt caller tag flow seed).run u =
        (some (.finished ⟨runIdOf flow.id tag, .aborted, 0, [strandedEntry]⟩), { u with executor := y }) ∧
      Keeps u.executor y := by
  obtain ⟨y, hy, hk⟩ := begin_stranded (w := .initial caller tag flow seed) hn { u.executor with locked := true }
  refine ⟨y, ?_, hk.keeps.settings, hk.keeps.program, hk.keeps.heap, hk.keeps.locked.trans hu.symm⟩
  rw [runToEnd_run, request_run, if_neg (by rw [hu]; decide), hy]
  exact drive_ended attempt _ _ _

/-- The result of a run by its visits and its ending. -/
def resultOf (flow : Flow) (tag : String) (ls : List Leg) (e : Ending) : Result :=
  ⟨runIdOf flow.id tag, e.outcome, ls.length, startingEntry :: (ls.flatMap Leg.entries ++ [e.entry])⟩

/-- A run that begins at a node makes its tour from there. -/
theorem run_tour {n : Node} {budget : Int} {pace : Option Float} {ls : List Leg} {e : Ending}
    (hu : u.executor.locked = false) (hn : flow.startNode? = some n)
    (hs : u.executor.settings.maxSteps = .scalar (.int budget)) (hp : u.executor.settings.Paced pace)
    (ht : Tour u.executor.settings flow 0 n (contextOf seed u.executor.heap) u.answers ls e)
    (hl : ls.length ≤ budget.toNat) :
    ∃ v, (runToEnd attempt caller tag flow seed).run u = (some (.finished (resultOf flow tag ls e)), v) ∧
      Toured pace flow (contextOf seed u.executor.heap) ls u v ∧ v.executor.locked = false := by
  obtain ⟨y, hy, hk⟩ := begin_run (w := .initial caller tag flow seed) hn { u.executor with locked := true }
  have hroom : 3 * ls.length + 1 ≤ y.settings.room := by
    rw [hk.settings, room_int hs]
    omega
  let w := (Walk.initial caller tag flow seed).begun (contextOf seed u.executor.heap)
  have hmem : contextOf seed u.executor.heap = ⟨w.env, y.heap⟩ := by
    rw [hk.heap]
    rfl
  have hwalk : w.flow = flow ∧ w.steps = 0 := ⟨rfl, rfl⟩
  let v : World := { u with executor := y }
  have hlock : v.executor.locked = true := hk.locked
  obtain ⟨t, hd, htoured, hunlocked⟩ := drive_tour ht attempt hp hwalk hmem hk.settings hlock rfl hroom
  refine ⟨t, ?_, ?_, hunlocked⟩
  · rw [runToEnd_run, request_run, if_neg (by rw [hu]; decide), hy]
    refine hd.trans ?_
    have hresult : w.result ls e = resultOf flow tag ls e := by
      simp [w, Walk.result, resultOf, Walk.begun, Walk.telling, Walk.initial]
    rw [hresult]
  · exact ⟨htoured.calls, htoured.pauses, htoured.attempts, htoured.settings.trans hk.settings,
      htoured.program.trans hk.program, htoured.heap⟩

end

end StepFlow.Run
