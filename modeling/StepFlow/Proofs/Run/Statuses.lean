/-
  StepFlow.Proofs.Run.Statuses — the status of an answer decides nothing.

  A run asks of an answer whether its body is JSON, and of a failure what it says. The status
  that comes with them goes to the process log and into the fault that is made of a failure,
  but neither what is told of a fault nor whether it is a crash depends on it. So runs whose
  answers differ in their statuses take the same turns, and differ in the process log at most.

  Proved, for every flow, executor and surroundings:
  (1) `settle_alike`: answers that are alike settle to one document, or to faults that are.
  (2) `resume_told`: handlers that are resumed with them do the same but for their notices.
  (3) `course_restated`: so all turns of two runs do, by induction on the turns.
  (4) `uniform_runToEnd`: and runs that are driven with lists of answers that are alike.
-/

import StepFlow.Proofs.Run.Driving
import StepFlow.Proofs.Run.Trace

namespace StepFlow

namespace Http

/-- The answers differ at most in their status, the failures in that of their response. -/
inductive Answer.Alike : Answer → Answer → Prop
  | response (status status' : Int) (body : List UInt8) : Alike (.response status body) (.response status' body)
  | request (message : String) (status status' : Option Int) :
      Alike (.failure (.request message status)) (.failure (.request message status'))
  | same (a : Answer) : Alike a a

/-- The faults differ at most in their status. -/
inductive Fault.Alike : Fault → Fault → Prop
  | request (message : String) (status status' : Option Int) :
      Alike (.request message status) (.request message status')
  | notJson (url message : String) (status status' : Int) :
      Alike (.notJson url message status) (.notJson url message status')
  | same (f : Fault) : Alike f f

theorem settle_alike (call : Call) {a b : Answer} (h : a.Alike b) :
    (∃ j, (settle call a).1 = .ok j ∧ (settle call b).1 = .ok j) ∨
      ∃ e f, (settle call a).1 = .error e ∧ (settle call b).1 = .error f ∧ e.Alike f := by
  cases h with
  | request message status status' => exact .inr ⟨_, _, rfl, rfl, .request message status status'⟩
  | same =>
    cases hs : (settle call a).1 with
    | ok j => exact .inl ⟨j, rfl, rfl⟩
    | error e => exact .inr ⟨e, e, rfl, rfl, .same e⟩
  | response status status' body =>
    cases hread : Json.read (Text.ofAnswer body) with
    | ok j => exact .inl ⟨j, by simp only [settle, hread], by simp only [settle, hread]⟩
    | error e =>
      exact .inr ⟨_, _, by simp only [settle, hread], by simp only [settle, hread],
        .notJson call.url e.message status status'⟩

/-- Failures of one class, whichever it is, are alike. -/
theorem named_alike (className message : String) (status status' : Option Int) :
    Answer.Alike (.failure (.named className message status)) (.failure (.named className message status')) := by
  unfold Failure.named
  split
  · exact .same _
  split
  · exact .same _
  · exact .request message status status'

/-- Lists of answers that are alike give answers that are alike. -/
theorem nextAnswer_alike {as bs : List Answer} (h : List.Forall₂ Answer.Alike as bs) :
    (nextAnswer as).1.Alike (nextAnswer bs).1 ∧ List.Forall₂ Answer.Alike (nextAnswer as).2 (nextAnswer bs).2 := by
  cases h with
  | nil => exact ⟨.same _, .nil⟩
  | cons h hs => exact ⟨h, hs⟩

end Http

namespace Run

open Script (Memory)

/-! ## Parts of handlers -/

/-- A node fails with faults that are alike in the same way. -/
theorem fail_restated (n : Node) {e f : Http.Fault} (h : e.Alike f) : fail n (.http f) = fail n (.http e) := by
  cases h <;> rfl

/-- A handler that is resumed with answers that are alike does the same, after notices of its own. -/
theorem resume_told (n : Node) (c : Http.Call) {a b : Http.Answer} (h : a.Alike b) (m : Memory) :
    ∃ (ns ns' : List Log.Notice) (es : List Effect) (m' : Memory) (r r' : Reached),
      Handler.resume n c a m = ⟨ns.map .log ++ es, m', r⟩ ∧ Handler.resume n c b m = ⟨ns'.map .log ++ es, m', r'⟩ ∧
        afterPart n r' = afterPart n r := by
  rcases Http.settle_alike c h with ⟨j, ha, hb⟩ | ⟨e, f, ha, hb, hef⟩
  · exact ⟨_, _, _, _, _, _, resume_ok ha m, resume_ok hb m, rfl⟩
  · refine ⟨(Http.settle c a).2, (Http.settle c b).2, [], m, .failed (.http e), .failed (.http f), ?_, ?_, ?_⟩
    · rw [resume_error ha, List.append_nil]
    · rw [resume_error hb, List.append_nil]
    · simp only [afterPart, fail_restated n hef]

/-- Notices go to the logger, and nowhere else. -/
theorem perform_notices (n : Node) (ns : List Log.Notice) (es : List Effect) (w : Walk) (x : Executor) :
    ∃ l, ((perform n (ns.map .log ++ es)).run w).run x = ((perform n es).run w).run (x.logging l) := by
  induction ns generalizing x with
  | nil => exact ⟨x.logger, rfl⟩
  | cons notice ns ih => exact ih ((log w.scope notice).run x).2

/-- The same standing, but for the logger. -/
def Standing.Restated (m m' : Standing) : Prop := ∃ l, m' = (m.1, m.2.logging l)

theorem Standing.Restated.trans {m m' m'' : Standing} (h : m.Restated m') (h' : m'.Restated m'') : m.Restated m'' := by
  obtain ⟨l, rfl⟩ := h
  obtain ⟨l', rfl⟩ := h'
  exact ⟨l', rfl⟩

theorem Standing.Restated.symm {m m' : Standing} (h : m.Restated m') : m'.Restated m := by
  obtain ⟨l, rfl⟩ := h
  exact ⟨m.2.logger, rfl⟩

/-- A part of a handler, told without its first notices. -/
theorem handle_notices {n : Node} {part : Memory → Handled} {w : Walk} {x : Executor} {ns : List Log.Notice}
    {es : List Effect} {m : Memory} {r : Reached} (h : part ⟨w.env, x.heap⟩ = ⟨ns.map .log ++ es, m, r⟩) :
    Standing.Restated
      (((do perform n es; afterPart n r : Walking Progress).run { w with env := m.env }).run { x with heap := m.heap })
      (((handle n part).run w).run x) := by
  have hhandle : ((handle n part).run w).run x =
      ((do
          perform n (part ⟨w.env, x.heap⟩).effects
          afterPart n (part ⟨w.env, x.heap⟩).reached : Walking Progress).run
        { w with env := (part ⟨w.env, x.heap⟩).memory.env }).run
        { x with heap := (part ⟨w.env, x.heap⟩).memory.heap } := rfl
  obtain ⟨l, hl⟩ := perform_notices n ns es { w with env := m.env } { x with heap := m.heap }
  have hsettles : Settles (do perform n es; afterPart n r : Walking Progress) { w with env := m.env }
      { x with heap := m.heap } := (steady_perform n es _ _).settles (settles_afterPart n r _ _)
  obtain ⟨l', hl'⟩ := hsettles.blind l
  refine ⟨l', ?_⟩
  rw [hhandle, h, walking_bind, hl]
  exact hl'

/-- A handler that is resumed with answers that are alike. -/
theorem handle_restated (n : Node) (c : Http.Call) {a b : Http.Answer} (h : a.Alike b) (w : Walk) (x : Executor) :
    Standing.Restated (((handle n (Handler.resume n c a)).run w).run x)
      (((handle n (Handler.resume n c b)).run w).run x) := by
  obtain ⟨ns, ns', es, m, r, r', ha, hb, hr⟩ := resume_told n c h ⟨w.env, x.heap⟩
  have hfirst := handle_notices (n := n) ha
  have hsecond := handle_notices (n := n) hb
  rw [hr] at hsecond
  exact hfirst.symm.trans hsecond

/-! ## Turns -/

/-- The surroundings differ at most in the statuses of their answers. -/
structure Surroundings.Alike (s t : Surroundings) : Prop where
  answer : ∀ k, (s.answer k).Alike (t.answer k)
  pause : t.pause = s.pause

/-- A run takes no notice of the logger. -/
theorem turned_blind {m m' : Standing} (h : m.Restated m') (s : Surroundings) (k : Nat) :
    (m.turned s k).Restated (m'.turned s k) := by
  obtain ⟨l, rfl⟩ := h
  obtain ⟨⟨p, w⟩, x⟩ := m
  cases p with
  | ended e => exact ⟨l, rfl⟩
  | going stage => exact (turn_settles ⟨w, stage⟩ (s.event k stage) w x).blind l

theorem turned_restated {s t : Surroundings} (h : s.Alike t) (m : Standing) (k : Nat) :
    (m.turned s k).Restated (m.turned t k) := by
  obtain ⟨⟨p, w⟩, x⟩ := m
  cases p with
  | ended e => exact ⟨x.logger, rfl⟩
  | going stage =>
    cases stage with
    | arriving n => exact ⟨_, rfl⟩
    | calling n c => exact handle_restated n c (h.answer k) w x
    | pausing n seconds =>
      have hsame : Standing.turned ((.going (.pausing n seconds), w), x) t k =
          Standing.turned ((.going (.pausing n seconds), w), x) s k := by
        simp only [Standing.turned, Surroundings.event, h.pause]
      rw [hsame]
      exact ⟨_, rfl⟩

/-- All along, a run stands as it does with answers that are alike. -/
theorem course_restated (q : Request) (x : Executor) {s t : Surroundings} (h : s.Alike t) (k : Nat) :
    (q.course x s k).Restated (q.course x t k) := by
  induction k with
  | zero => exact ⟨_, rfl⟩
  | succ k ih => exact (turned_restated h _ k).trans (turned_blind ih t k)

/-! ## Runs -/

/-- Two runs of one request are the same, up to a turn, for all but the process log. -/
structure Indistinct (q : Request) (x : Executor) (s t : Surroundings) (k : Nat) : Prop where
  /-- Where the run is; and when it has ended, its result, with its outcome, steps and entries. -/
  progress : (q.course x t k).1.1 = (q.course x s k).1.1
  /-- What it has kept: its entries, steps and variables. -/
  walk : (q.course x t k).1.2 = (q.course x s k).1.2
  heap : (q.course x t k).2.heap = (q.course x s k).2.heap
  /-- What its channels have heard, and all else of the executor. -/
  executor : ∃ l, (q.course x t k).2 = (q.course x s k).2.logging l
  calls : q.calls x t k = q.calls x s k
  pauses : q.pauses x t k = q.pauses x s k

theorem course_indistinct {s t : Surroundings} (h : s.Alike t) (q : Request) (x : Executor) (k : Nat) :
    Indistinct q x s t k := by
  have hprogress : ∀ j, (q.course x t j).1.1 = (q.course x s j).1.1 := fun j => by
    obtain ⟨l, hl⟩ := course_restated q x h j
    rw [hl]
  obtain ⟨l, hl⟩ := course_restated q x h k
  refine ⟨hprogress k, by rw [hl], by rw [hl]; rfl, ⟨l, by rw [hl]⟩, ?_, ?_⟩
  · exact List.filterMap_congr fun j _ => by rw [hprogress j]
  · exact List.filterMap_congr fun j _ => by rw [hprogress j]

/-! ## Lists of answers -/

/-- The worlds differ at most in the statuses of the answers to come and in the process log. -/
structure World.Alike (u v : World) : Prop where
  executor : ∃ l, v.executor = u.executor.logging l
  answers : List.Forall₂ Http.Answer.Alike u.answers v.answers
  calls : v.calls = u.calls
  pauses : v.pauses = u.pauses
  attempts : v.attempts = u.attempts

/-- In worlds that are alike it has the same result, and they stay so. -/
def Uniform {α : Type} (act : StateM World α) : Prop :=
  ∀ u v : World, u.Alike v → (act.run v).1 = (act.run u).1 ∧ (act.run u).2.Alike (act.run v).2

theorem uniform_pure {α : Type} (a : α) : Uniform (pure a) := fun _ _ h => ⟨rfl, h⟩

theorem uniform_bind {α β : Type} {act : StateM World α} {k : α → StateM World β} (h : Uniform act)
    (hk : ∀ a, Uniform (k a)) : Uniform (act >>= k) := by
  intro u v huv
  obtain ⟨hresult, hafter⟩ := h u v huv
  rw [world_bind, world_bind, hresult]
  exact hk _ _ _ hafter

/-- What reads of the world only what is the same. -/
theorem uniform_get {α : Type} {k : World → StateM World α} (hk : ∀ u, Uniform (k u))
    (hsame : ∀ u v : World, u.Alike v → k v = k u) : Uniform (get >>= k) := by
  intro u v huv
  rw [world_bind, world_bind]
  show ((k v).run v).1 = ((k u).run u).1 ∧ ((k u).run u).2.Alike ((k v).run v).2
  rw [hsame u v huv]
  exact hk u u v huv

theorem uniform_onExecutor {α : Type} {f : StateM Executor α}
    (hf : ∀ x l, ∃ l', f.run (x.logging l) = ((f.run x).1, (f.run x).2.logging l')) : Uniform (onExecutor f) := by
  intro u v h
  obtain ⟨l, hl⟩ := h.executor
  obtain ⟨l', hl'⟩ := hf u.executor l
  have hrun : ∀ w : World, (onExecutor f).run w = ((f.run w.executor).1, { w with executor := (f.run w.executor).2 }) :=
    fun _ => rfl
  rw [hrun, hrun, hl, hl']
  exact ⟨rfl, ⟨l', rfl⟩, h.answers, h.calls, h.pauses, h.attempts⟩

theorem uniform_request (caller : Log.Scope) (tag : String) (flow : Flow) (seed : Env) :
    Uniform (onExecutor (request caller tag flow seed)) := by
  refine uniform_onExecutor fun x l => ?_
  obtain ⟨l', hl⟩ := job_blind ⟨caller, tag, flow, seed⟩ x l
  refine ⟨l', Prod.ext ?_ ?_⟩
  · exact congrArg (fun r : Job × Executor => r.1.state) hl
  · exact congrArg (fun r : Job × Executor => r.2) hl

theorem uniform_rest (attempt : Option Attempt) (scope : Log.Scope) (seconds : Float) :
    Uniform (rest attempt scope seconds) := by
  have hmodify : Uniform (modify fun w => { w with pauses := w.pauses ++ [seconds] } : StateM World PUnit) :=
    fun u v h => ⟨rfl, h.executor, h.answers, h.calls, congrArg (· ++ [seconds]) h.pauses, h.attempts⟩
  refine uniform_bind hmodify fun _ => ?_
  cases attempt with
  | none => exact uniform_pure _
  | some a =>
    refine uniform_get (fun u => ?_) fun u v h => by rw [h.pauses]
    split
    · refine uniform_bind (uniform_request scope a.tag a.flow []) fun next => ?_
      split
      · intro u v h
        obtain ⟨l, hl⟩ := h.executor
        refine ⟨rfl, h.executor, h.answers, h.calls, h.pauses, ?_⟩
        show v.attempts ++ [(_, v.executor.locked)] = u.attempts ++ [(_, u.executor.locked)]
        rw [h.attempts, hl]
        rfl
      · exact uniform_pure _
    · exact uniform_pure _

/-- Whatever event a process waits for, what comes of it is the same. -/
theorem uniform_turn (attempt : Option Attempt) (p : Process) :
    Uniform (do let event ← await attempt p; onExecutor (p.next event)) := by
  have hnext : ∀ event, Uniform (onExecutor (p.next event)) := fun event =>
    uniform_onExecutor fun x l => by
      obtain ⟨l', hl⟩ := (turn_settles p event p.walk x).blind l
      exact ⟨l', congrArg (fun r : Standing => (ofProgress r.1, r.2)) hl⟩
  obtain ⟨w, stage⟩ := p
  cases stage with
  | arriving n => exact uniform_bind (uniform_pure _) hnext
  | pausing n seconds =>
    exact uniform_bind (uniform_bind (uniform_rest attempt w.scope seconds) fun _ => uniform_pure _) hnext
  | calling n c =>
    intro u v h
    obtain ⟨l, hl⟩ := h.executor
    obtain ⟨hfirst, hrest⟩ := Http.nextAnswer_alike h.answers
    have hblind : Standing.Restated
        (((handle n (Handler.resume n c (Http.nextAnswer v.answers).1)).run w).run u.executor)
        (((handle n (Handler.resume n c (Http.nextAnswer v.answers).1)).run w).run v.executor) := by
      rw [hl]
      exact (turn_settles ⟨w, .calling n c⟩ (.answer (Http.nextAnswer v.answers).1) w u.executor).blind l
    obtain ⟨l', hl'⟩ := (handle_restated n c hfirst w u.executor).trans hblind
    have hrun : ∀ t : World,
        (do let event ← await attempt ⟨w, .calling n c⟩; onExecutor (Process.next ⟨w, .calling n c⟩ event) :
          StateM World Next).run t =
        (let r := ((handle n (Handler.resume n c (Http.nextAnswer t.answers).1)).run w).run t.executor
         (ofProgress r.1,
          { t with answers := (Http.nextAnswer t.answers).2, calls := t.calls ++ [c], executor := r.2 })) :=
      fun _ => rfl
    rw [hrun, hrun, hl']
    exact ⟨rfl, ⟨l', rfl⟩, hrest, congrArg (· ++ [c]) h.calls, h.pauses, h.attempts⟩

theorem uniform_drive (attempt : Option Attempt) (room : Nat) (next : Next) : Uniform (drive attempt room next) := by
  induction room generalizing next with
  | zero => cases next <;> exact uniform_pure _
  | succ room ih =>
    cases next with
    | inr e => exact uniform_pure _
    | inl p =>
      show Uniform ((do let event ← await attempt p; onExecutor (p.next event)) >>= drive attempt room)
      exact uniform_bind (uniform_turn attempt p) ih

theorem uniform_runToEnd (attempt : Option Attempt) (caller : Log.Scope) (tag : String) (flow : Flow) (seed : Env) :
    Uniform (runToEnd attempt caller tag flow seed) := by
  refine uniform_bind (uniform_request caller tag flow seed) fun next => ?_
  refine uniform_get (fun u => uniform_drive attempt _ next) fun u v h => ?_
  obtain ⟨l, hl⟩ := h.executor
  rw [hl]
  rfl

/-! ## Main result -/

/-- Whatever statuses come with its answers and failures, a run is the same: turn by turn in any
    surroundings, and as a whole with a list of answers. -/
theorem statuses_decide_nothing :
    (∀ s t : Surroundings, s.Alike t → ∀ q x k, Indistinct q x s t k) ∧
    ∀ (x : Executor) (as bs : List Http.Answer), List.Forall₂ Http.Answer.Alike as bs →
      ∀ attempt caller tag flow seed,
        let u := (runToEnd attempt caller tag flow seed).run (.start x as)
        let v := (runToEnd attempt caller tag flow seed).run (.start x bs)
        v.1 = u.1 ∧ u.2.Alike v.2 :=
  ⟨fun _ _ h q x k => course_indistinct h q x k,
    fun x _ _ h attempt caller tag flow seed =>
      uniform_runToEnd attempt caller tag flow seed _ _ ⟨⟨x.logger, rfl⟩, h, rfl, rfl, rfl⟩⟩

/-- One call is answered, another one is not, with statuses that the process log tells apart. -/
theorem statuses_of_two_calls :
    let get : ApiConfig := ⟨"http://x", .get, none, none⟩
    let start : Node := ⟨"s", .start, .origin, ⟨"Start", none, none, none, none⟩⟩
    let first : Node := ⟨"a", .api, .origin, ⟨"First", none, none, none, some get⟩⟩
    let second : Node := ⟨"b", .api, .origin, ⟨"Second", none, none, none, some get⟩⟩
    let flow : Flow := ⟨"f", "Two", none, [start, first, second], [⟨"c", "s", "a", none⟩, ⟨"d", "a", "b", none⟩]⟩
    let q : Request := ⟨.none, "t", flow, []⟩
    let x : Executor := .create ⟨.scalar (.int 0), .scalar (.int 10)⟩ ⟨0, []⟩ .empty
    let s : Surroundings := ⟨fun k => if k = 2 then .response 200 [49] else .response 200 [60], fun _ => .ok ()⟩
    let t : Surroundings := ⟨fun k => if k = 2 then .response 503 [49] else .response 404 [60], fun _ => .ok ()⟩
    let as : List Http.Answer := [.response 200 [49], .failure (.request "lost" none)]
    let bs : List Http.Answer := [.response 503 [49], .failure (.request "lost" (some 404))]
    Indistinct q x s t 5 ∧ (q.calls x s 5).length = 2 ∧
      (∃ r, (q.course x s 5).1.1 = .ended (.finished r) ∧ r.outcome = .aborted) ∧
      (q.course x s 5).2.logger.records.length ≠ (q.course x t 5).2.logger.records.length ∧
      ((runToEnd none .none "t" flow []).run (.start x as)).2.Alike
        ((runToEnd none .none "t" flow []).run (.start x bs)).2 := by
  intro get start first second flow q x s t as bs
  have hst : s.Alike t := by
    refine ⟨fun k => ?_, rfl⟩
    by_cases hk : k = 2
    · simp only [s, t, if_pos hk]
      exact .response 200 503 [49]
    · simp only [s, t, if_neg hk]
      exact .response 200 404 [60]
  have has : List.Forall₂ Http.Answer.Alike as bs :=
    .cons (.response 200 503 [49]) (.cons (.request "lost" none (some 404)) .nil)
  exact ⟨statuses_decide_nothing.1 s t hst q x 5, by decide +kernel, ⟨_, rfl, rfl⟩, by decide +kernel,
    (statuses_decide_nothing.2 x as bs has none .none "t" flow []).2⟩

end Run

end StepFlow
