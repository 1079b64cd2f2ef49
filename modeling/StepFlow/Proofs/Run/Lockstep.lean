/-
  StepFlow.Proofs.Run.Lockstep — two runs that take the same turns.

  A run looks up its flow, and reads of a node its id, its type, its label and the payload of
  its type (`Node.Alike`, `Flow.Agrees`). Of its executor it reads the heap and how long to
  pause; whatever it does to the executor, it does without looking (`Companions`). So two runs
  whose flows agree, on executors that have this in common, are abreast after every turn
  (`Abreast`), as long as the budget bars both or none.

  Proved, for all such flows and executors:
  (1) `begin_abreast`: the first steps of two requests.
  (2) `turned_abreast`: a turn of two runs that are abreast.
  (3) `course_abreast`: so whole courses; and then the two runs are the same for anyone who
      looks at their calls, pauses, entries, results and variables (`same_of_abreast`).
-/

import StepFlow.Proofs.Run.Trace

namespace StepFlow

/-! ## Flows that agree -/

/-- The nodes differ at most in what no run reads. -/
structure Node.Alike (n m : Node) : Prop where
  id : m.id = n.id
  type : m.type = n.type
  label : m.data.label = n.data.label
  script : n.type = .script → m.data.script = n.data.script
  condition : n.type = .decision → m.data.condition = n.data.condition
  apiConfig : n.type = .api → m.data.apiConfig = n.data.apiConfig

theorem Node.Alike.refl (n : Node) : n.Alike n := ⟨rfl, rfl, rfl, fun _ => rfl, fun _ => rfl, fun _ => rfl⟩

/-- What is looked up in the one flow is found alike in the other one. -/
structure Flow.Agrees (f g : Flow) : Prop where
  id : g.id = f.id
  count : g.nodes.length = f.nodes.length
  start : Option.Rel Node.Alike f.startNode? g.startNode?
  next : ∀ id port, g.next? id port = f.next? id port
  node : ∀ id, Option.Rel Node.Alike (f.node? id) (g.node? id)

theorem Flow.Agrees.refl (f : Flow) : f.Agrees f := by
  have hfound : ∀ n : Option Node, Option.Rel Node.Alike n n := by
    intro n
    cases n with
    | none => exact .none
    | some n => exact .some (.refl n)
  exact ⟨rfl, rfl, hfound _, fun _ _ => rfl, fun _ => hfound _⟩

namespace Run

open Script (Memory)

section

variable {n m : Node}

theorem run_alike (h : n.Alike m) : Handler.run m = Handler.run n := by
  funext memory
  unfold Handler.run
  rw [h.type]
  cases ht : n.type with
  | start | task | finish => rfl
  | script => simp only [Handler.script, h.script ht]
  | decision => simp only [Handler.decision, h.condition ht]
  | api => simp only [Handler.api, h.apiConfig ht, h.id]

theorem resume_alike (h : n.Alike m) : Handler.resume m = Handler.resume n := by
  funext call a memory
  unfold Handler.resume
  rw [h.id]

theorem tellNode_alike (h : n.Alike m) (scope : Log.Scope) : tellNode scope m = tellNode scope n := by
  funext message status
  unfold tellNode
  rw [h.id, h.label]

theorem perform_alike (h : n.Alike m) (es : List Effect) : perform m es = perform n es := by
  induction es with
  | nil => rfl
  | cons e es ih =>
    cases e with
    | emit message status => simp only [perform, ih, tellNode_alike h]
    | log notice => simp only [perform, ih]

theorem fail_alike (h : n.Alike m) (f : NodeFault) : fail m f = fail n f := by
  have hnotice : faultNotice m f = faultNotice n f := by
    unfold faultNotice
    rw [h.id]
  simp only [fail, hnotice, tellNode_alike h]

end

/-! ## Executors in company -/

/-- Executors that a run cannot tell apart, and never will be able to. -/
structure Companions (X : Executor → Executor → Prop) : Prop where
  heap {x y : Executor} : X x y → y.heap = x.heap
  pause {x y : Executor} : X x y → y.settings.pause? y.heap = x.settings.pause? x.heap
  log {x y : Executor} : X x y → ∀ scope n, X ((log scope n).run x).2 ((log scope n).run y).2
  publish {x y : Executor} : X x y → ∀ scope line s,
    X ((publish scope line s).run x).2 ((publish scope line s).run y).2
  active {x y : Executor} : X x y → ∀ scope id, X ((setActive scope id).run x).2 ((setActive scope id).run y).2
  holding {x y : Executor} : X x y → ∀ heap, X { x with heap := heap } { y with heap := heap }
  locking {x y : Executor} : X x y → ∀ b, X { x with locked := b } { y with locked := b }

/-- One executor twice. -/
theorem companions_eq : Companions Eq := by
  constructor
  all_goals
    rintro x _ rfl
    intros
    rfl

/-- The executors differ at most in their budgets, their boards with the callbacks, and their loggers. -/
structure Peers (x y : Executor) : Prop where
  pacing : y.settings.pacing = x.settings.pacing
  heap : y.heap = x.heap
  locked : y.locked = x.locked

theorem companions_peers : Companions Peers := by
  refine ⟨Peers.heap, fun h => ?_, fun h _ _ => ⟨h.pacing, h.heap, h.locked⟩,
    fun h _ _ _ => ⟨h.pacing, h.heap, h.locked⟩, fun h _ _ => ⟨h.pacing, h.heap, h.locked⟩,
    fun h _ => ⟨h.pacing, rfl, h.locked⟩, fun h _ => ⟨h.pacing, h.heap, rfl⟩⟩
  unfold Settings.pause?
  rw [h.pacing, h.heap]

/-! ## Abreast -/

/-- How two runs stand to each other that have come as far as each other. -/
inductive Progress.Alike : Progress → Progress → Prop
  | arriving {n m : Node} : n.Alike m → Alike (.going (.arriving n)) (.going (.arriving m))
  | calling {n m : Node} (c : Http.Call) : n.Alike m → Alike (.going (.calling n c)) (.going (.calling m c))
  | pausing {n m : Node} (seconds : Float) : n.Alike m →
      Alike (.going (.pausing n seconds)) (.going (.pausing m seconds))
  | ended (e : Ended) : Alike (.ended e) (.ended e)

/-- Two results on walks that differ in their flows, and on executors in company. -/
structure Abreast (X : Executor → Executor → Prop) (f g : Flow) {α β : Type} (R : α → β → Prop)
    (r : (α × Walk) × Executor) (t : (β × Walk) × Executor) : Prop where
  value : R r.1.1 t.1.1
  flow : r.1.2.flow = f
  walk : t.1.2 = { r.1.2 with flow := g }
  executor : X r.2 t.2

/-- Two parts of runs that are abreast do alike. -/
def Parallel (X : Executor → Executor → Prop) (f g : Flow) {α β : Type} (R : α → β → Prop) (a : Walking α)
    (b : Walking β) : Prop :=
  ∀ (w : Walk) (x y : Executor), w.flow = f → X x y →
    Abreast X f g R ((a.run w).run x) ((b.run { w with flow := g }).run y)

section

variable {X : Executor → Executor → Prop} {f g : Flow} {α β γ δ : Type}

theorem Parallel.bind {R : α → β → Prop} {S : γ → δ → Prop} {a : Walking α} {b : Walking β} {k : α → Walking γ}
    {l : β → Walking δ} (h : Parallel X f g R a b) (hk : ∀ u v, R u v → Parallel X f g S (k u) (l v)) :
    Parallel X f g S (a >>= k) (b >>= l) := by
  intro w x y hw hxy
  obtain ⟨hvalue, hflow, hwalk, hexecutor⟩ := h w x y hw hxy
  rw [walking_bind, walking_bind, hwalk]
  exact hk _ _ hvalue _ _ _ hflow hexecutor

/-- What is done first need not be looked at. -/
theorem Parallel.then {R : α → β → Prop} {S : γ → δ → Prop} {a : Walking α} {b : Walking β} {k : α → Walking γ}
    {l : β → Walking δ} (h : Parallel X f g R a b) (hk : ∀ u v, Parallel X f g S (k u) (l v)) :
    Parallel X f g S (a >>= k) (b >>= l) :=
  h.bind fun u v _ => hk u v

theorem parallel_pure {R : α → β → Prop} {u : α} {v : β} (h : R u v) : Parallel X f g R (pure u) (pure v) :=
  fun _ _ _ hw hxy => ⟨h, hw, rfl, hxy⟩

theorem parallel_get {R : α → β → Prop} {k : Walk → Walking α} {l : Walk → Walking β}
    (h : ∀ w : Walk, w.flow = f → Parallel X f g R (k w) (l { w with flow := g })) :
    Parallel X f g R (get >>= k) (get >>= l) :=
  fun w x y hw hxy => h w hw w x y hw hxy

theorem parallel_log (hX : Companions X) (scope : Log.Scope) (n : Log.Notice) :
    Parallel X f g Eq (log scope n : Walking Unit) (log scope n) :=
  fun _ _ _ hw hxy => ⟨rfl, hw, rfl, hX.log hxy scope n⟩

theorem parallel_setActive (hX : Companions X) (scope : Log.Scope) (id : Option String) :
    Parallel X f g Eq (setActive scope id : Walking Unit) (setActive scope id) :=
  fun _ _ _ hw hxy => ⟨rfl, hw, rfl, hX.active hxy scope id⟩

theorem parallel_tell (hX : Companions X) (scope : Log.Scope) (e : Entry) :
    Parallel X f g Eq (tell scope e) (tell scope e) :=
  fun _ _ _ hw hxy => ⟨rfl, hw, rfl, hX.publish hxy scope .logs (.entry e)⟩

theorem parallel_enter (b : Log.Binding) : Parallel X f g Eq (enter b) (enter b) :=
  fun _ _ _ hw hxy => ⟨rfl, hw, rfl, hxy⟩

theorem parallel_leave : Parallel X f g Eq leave leave := fun _ _ _ hw hxy => ⟨rfl, hw, rfl, hxy⟩

theorem parallel_perform (hX : Companions X) (n : Node) (es : List Effect) :
    Parallel X f g Eq (perform n es) (perform n es) := by
  induction es with
  | nil => exact parallel_pure rfl
  | cons e es ih =>
    cases e with
    | emit message status => exact parallel_get fun w _ => (parallel_tell hX _ _).then fun _ _ => ih
    | log notice => exact parallel_get fun w _ => (parallel_log hX _ _).then fun _ _ => ih

/-! ## The ends of a run -/

theorem parallel_release (hX : Companions X) : Parallel X f g Eq release release :=
  parallel_leave.then fun _ _ _ _ _ hw hxy => ⟨rfl, hw, rfl, hX.locking hxy false⟩

theorem parallel_finish (hX : Companions X) (hf : f.Agrees g) (o : Outcome) :
    Parallel X f g Progress.Alike (finish o) (finish o) := by
  refine parallel_get fun w _ => (parallel_setActive hX _ _).then fun _ _ => parallel_get fun v hv => ?_
  have hid : g.id = v.flow.id := by rw [hf.id, hv]
  dsimp only
  rw [hid]
  exact (parallel_log hX _ _).then fun _ _ => (parallel_release hX).then fun _ _ => parallel_pure (.ended _)

theorem parallel_raise (hX : Companions X) (c : Crash) : Parallel X f g Progress.Alike (raise c) (raise c) :=
  parallel_get fun _ _ => (parallel_setActive hX _ _).then fun _ _ =>
    (parallel_release hX).then fun _ _ => parallel_pure (.ended _)

theorem parallel_fail (hX : Companions X) (hf : f.Agrees g) (n : Node) (e : NodeFault) :
    Parallel X f g Progress.Alike (fail n e) (fail n e) :=
  parallel_get fun _ _ => (parallel_log hX _ _).then fun _ _ =>
    (parallel_tell hX _ _).then fun _ _ => parallel_finish hX hf .aborted

/-! ## From node to node -/

variable {n m : Node}

theorem parallel_pause (hX : Companions X) (h : n.Alike m) : Parallel X f g Progress.Alike (pause n) (pause m) := by
  intro w x y hw hxy
  rw [pause_eq, pause_eq, hX.pause hxy]
  cases x.settings.pause? x.heap with
  | error t => exact parallel_raise hX _ w x y hw hxy
  | ok pace =>
    cases pace with
    | none => exact ⟨.arriving h, hw, rfl, hxy⟩
    | some seconds => exact ⟨.pausing seconds h, hw, rfl, hxy⟩

theorem parallel_depart (hX : Companions X) (hf : f.Agrees g) (h : n.Alike m) (t : Transition) :
    Parallel X f g Progress.Alike (depart n t) (depart m t) := by
  refine parallel_get fun w hw => ?_
  rw [tellNode_alike h]
  by_cases ht : t.terminal = true
  · rw [if_pos ht, if_pos ht]
    exact (parallel_tell hX _ _).then fun _ _ => parallel_finish hX hf .success
  · rw [if_neg ht, if_neg ht]
    have hnext : g.next? m.id t.port = w.flow.next? n.id t.port := by rw [hf.next, h.id, hw]
    dsimp only
    rw [hnext]
    cases w.flow.next? n.id t.port with
    | none => exact (parallel_tell hX _ _).then fun _ _ => parallel_finish hX hf .stopped
    | some c =>
      have hnode := hf.node c.target
      rw [← hw] at hnode
      dsimp only
      generalize w.flow.node? c.target = a at hnode ⊢
      generalize g.node? c.target = b at hnode ⊢
      cases hnode with
      | none =>
        exact (parallel_get fun _ _ => parallel_tell hX _ _).then fun _ _ => parallel_finish hX hf .stopped
      | some hnm => exact parallel_pause hX hnm

theorem parallel_afterPart (hX : Companions X) (hf : f.Agrees g) (h : n.Alike m) (r : Reached) :
    Parallel X f g Progress.Alike (afterPart n r) (afterPart m r) := by
  cases r with
  | done t => exact parallel_leave.then fun _ _ => parallel_depart hX hf h t
  | failed e =>
    refine parallel_leave.then fun _ _ => ?_
    rw [fail_alike h]
    exact parallel_fail hX hf n e
  | calling c => exact parallel_pure (.calling c h)

theorem parallel_handle (hX : Companions X) (hf : f.Agrees g) (h : n.Alike m) (part : Memory → Handled) :
    Parallel X f g Progress.Alike (handle n part) (handle m part) := by
  intro w x y hw hxy
  have hpart : part ⟨w.env, y.heap⟩ = part ⟨w.env, x.heap⟩ := by rw [hX.heap hxy]
  have hrest := ((parallel_perform (f := f) (g := g) hX n (part ⟨w.env, x.heap⟩).effects).then fun _ _ =>
    parallel_afterPart hX hf h (part ⟨w.env, x.heap⟩).reached)
      { w with env := (part ⟨w.env, x.heap⟩).memory.env } _ _ hw (hX.holding hxy (part ⟨w.env, x.heap⟩).memory.heap)
  have hleft : ((handle n part).run w).run x =
      ((do
          perform n (part ⟨w.env, x.heap⟩).effects
          afterPart n (part ⟨w.env, x.heap⟩).reached : Walking Progress).run
        { w with env := (part ⟨w.env, x.heap⟩).memory.env }).run
        { x with heap := (part ⟨w.env, x.heap⟩).memory.heap } := rfl
  have hright : ((handle m part).run { w with flow := g }).run y =
      ((do
          perform m (part ⟨w.env, y.heap⟩).effects
          afterPart m (part ⟨w.env, y.heap⟩).reached : Walking Progress).run
        { w with flow := g, env := (part ⟨w.env, y.heap⟩).memory.env }).run
        { y with heap := (part ⟨w.env, y.heap⟩).memory.heap } := rfl
  rw [hleft, hright, hpart, perform_alike h]
  exact hrest

theorem parallel_execute (hX : Companions X) (hf : f.Agrees g) (h : n.Alike m) :
    Parallel X f g Progress.Alike (execute n) (execute m) := by
  have hcount : Parallel X f g Eq (modify fun w : Walk => { w with steps := w.steps + 1 } : Walking Unit)
      (modify fun w => { w with steps := w.steps + 1 }) := fun _ _ _ hw hxy => ⟨rfl, hw, rfl, hxy⟩
  refine hcount.then fun _ _ => parallel_get fun w _ => ?_
  dsimp only
  rw [tellNode_alike h, h.id, h.type, run_alike h]
  exact (parallel_setActive hX _ _).then fun _ _ => (parallel_tell hX _ _).then fun _ _ =>
    (parallel_log hX _ _).then fun _ _ => (parallel_enter _).then fun _ _ => parallel_handle hX hf h _

/-- Runs arrive alike at a node that the budget bars to both, or to none. -/
theorem arrive_abreast (hX : Companions X) (hf : f.Agrees g) (h : n.Alike m) {w : Walk} {x y : Executor}
    (hw : w.flow = f) (hxy : X x y) (hb : y.settings.bar? y.heap w.steps = x.settings.bar? x.heap w.steps) :
    Abreast X f g Progress.Alike (((arrive n).run w).run x) (((arrive m).run { w with flow := g }).run y) := by
  cases hx : x.settings.bar? x.heap w.steps with
  | some e =>
    rw [arrive_some hx, arrive_some (w := { w with flow := g }) (hb.trans hx), fail_alike h]
    exact parallel_fail hX hf n e w x y hw hxy
  | none =>
    rw [arrive_none hx, arrive_none (w := { w with flow := g }) (hb.trans hx)]
    exact parallel_execute hX hf h w x y hw hxy

/-! ## Turns -/

theorem begin_abreast (hX : Companions X) (hf : f.Agrees g) : Parallel X f g Progress.Alike begin begin := by
  refine parallel_get fun w hw => ?_
  subst hw
  have hstart := hf.start
  dsimp only
  generalize w.flow.startNode? = a at hstart ⊢
  generalize g.startNode? = b at hstart ⊢
  cases hstart with
  | none => exact (parallel_get fun _ _ => parallel_tell hX _ _).then fun _ _ => parallel_finish hX hf .aborted
  | some h =>
    dsimp only
    rw [hf.id, hf.count]
    refine (parallel_log hX _ _).then fun _ _ => (parallel_get fun _ _ => parallel_tell hX _ _).then fun _ _ => ?_
    intro v x y hv hxy
    have hcontext : contextOf w.env y.heap = contextOf w.env x.heap := by rw [hX.heap hxy]
    refine ⟨.arriving h, hv, ?_, ?_⟩
    · show ({ v with flow := g, env := (contextOf w.env y.heap).env } : Walk) = _
      rw [hcontext]
      rfl
    · show X { x with heap := (contextOf w.env x.heap).heap } { y with heap := (contextOf w.env y.heap).heap }
      rw [hcontext]
      exact hX.holding hxy _

/-- Two runs that are abreast take the same turn, unless the budget tells them apart. -/
theorem turned_abreast (hX : Companions X) (hf : f.Agrees g) {r t : Standing} (h : Abreast X f g Progress.Alike r t)
    (hb : ∀ n, r.1.1 = .going (.arriving n) →
      t.2.settings.bar? t.2.heap r.1.2.steps = r.2.settings.bar? r.2.heap r.1.2.steps) (s : Surroundings) (k : Nat) :
    Abreast X f g Progress.Alike (r.turned s k) (t.turned s k) := by
  obtain ⟨⟨p, w⟩, x⟩ := r
  obtain ⟨⟨p', w'⟩, y⟩ := t
  obtain ⟨hvalue, hflow, hwalk, hxy⟩ := h
  dsimp only at hvalue hflow hwalk hxy
  subst hwalk
  cases hvalue with
  | ended e => exact ⟨.ended e, hflow, rfl, hxy⟩
  | arriving hn => exact arrive_abreast hX hf hn hflow hxy (hb _ rfl)
  | @calling n m c hn =>
    show Abreast X f g Progress.Alike (((handle n (Handler.resume n c (s.answer k))).run w).run x)
      (((handle m (Handler.resume m c (s.answer k))).run { w with flow := g }).run y)
    rw [resume_alike hn]
    exact parallel_handle hX hf hn _ w x y hflow hxy
  | @pausing n m seconds hn =>
    cases hp : s.pause k with
    | ok u =>
      have hstep : ∀ (p : Node) (v : Walk) (z : Executor), Standing.turned ((.going (.pausing p seconds), v), z) s k =
          ((.going (.arriving p), v), z) := fun p v z => by
        simp only [Standing.turned, Surroundings.event, hp]
        rfl
      rw [hstep, hstep]
      exact ⟨.arriving hn, hflow, rfl, hxy⟩
    | error c =>
      have hstep : ∀ (p : Node) (v : Walk) (z : Executor), Standing.turned ((.going (.pausing p seconds), v), z) s k =
          ((raise c).run v).run z := fun p v z => by
        simp only [Standing.turned, Surroundings.event, hp]
        rfl
      rw [hstep, hstep]
      exact parallel_raise hX c w x y hflow hxy

/-! ## Courses -/

variable {q : Request} {s : Surroundings} {x y : Executor}

theorem course_abreast (hX : Companions X) (hf : q.flow.Agrees g) (hxy : X x y) {k : Nat}
    (hb : ∀ j < k, ∀ n, (q.course x s j).1.1 = .going (.arriving n) →
      y.settings.bar? (q.course x s j).2.heap (q.course x s j).1.2.steps =
        x.settings.bar? (q.course x s j).2.heap (q.course x s j).1.2.steps) :
    Abreast X q.flow g Progress.Alike (q.course x s k) (Request.course { q with flow := g } y s k) := by
  induction k with
  | zero =>
    have hrunId : runIdOf g.id q.tag = runIdOf q.flow.id q.tag := by rw [hf.id]
    have hinitial : Walk.initial q.caller q.tag g q.seed =
        { Walk.initial q.caller q.tag q.flow q.seed with flow := g } := by
      simp only [Walk.initial, hrunId]
    have hbegun := begin_abreast hX hf (.initial q.caller q.tag q.flow q.seed) { x with locked := true }
      { y with locked := true } rfl (hX.locking hxy true)
    rw [← hinitial] at hbegun
    exact hbegun
  | succ k ih =>
    have habreast := ih fun j hj => hb j (Nat.lt_succ_of_lt hj)
    refine turned_abreast hX hf habreast (fun n hn => ?_) s k
    rw [hX.heap habreast.executor, (course_sound { q with flow := g } y s k).settings, (course_sound q x s k).settings]
    exact hb k (Nat.lt_succ_self k) n hn

end

/-! ## Runs that are the same -/

/-- Two runs are the same up to a turn, for anyone who looks at what they have told and done,
    at their variables, and at the results that they end with. -/
structure SameRun (q r : Request) (x y : Executor) (s : Surroundings) (k : Nat) : Prop where
  ended : ∀ e, (r.course y s k).1.1 = .ended e ↔ (q.course x s k).1.1 = .ended e
  entries : (r.course y s k).1.2.entries = (q.course x s k).1.2.entries
  steps : (r.course y s k).1.2.steps = (q.course x s k).1.2.steps
  env : (r.course y s k).1.2.env = (q.course x s k).1.2.env
  heap : (r.course y s k).2.heap = (q.course x s k).2.heap
  calls : r.calls y s k = q.calls x s k
  pauses : r.pauses y s k = q.pauses x s k

theorem Progress.Alike.ended_iff {p p' : Progress} (h : p.Alike p') (e : Ended) : p' = .ended e ↔ p = .ended e := by
  cases h with
  | ended e' => exact Iff.rfl
  | arriving | calling | pausing => constructor <;> intro h <;> cases h

theorem Progress.Alike.call? {p p' : Progress} (h : p.Alike p') : p'.call? = p.call? := by cases h <;> rfl

theorem Progress.Alike.pause? {p p' : Progress} (h : p.Alike p') : p'.pause? = p.pause? := by cases h <;> rfl

theorem same_of_abreast {X : Executor → Executor → Prop} (hX : Companions X) {f g : Flow} {q r : Request}
    {x y : Executor} {s : Surroundings} {k : Nat}
    (h : ∀ j ≤ k, Abreast X f g Progress.Alike (q.course x s j) (r.course y s j)) : SameRun q r x y s k := by
  have hk := h k (Nat.le_refl k)
  refine ⟨hk.value.ended_iff, ?_, ?_, ?_, hX.heap hk.executor, ?_, ?_⟩
  · rw [hk.walk]
  · rw [hk.walk]
  · rw [hk.walk]
  · refine List.filterMap_congr fun j hj => ?_
    exact (h j (Nat.le_of_lt_succ (List.mem_range.mp hj))).value.call?
  · refine List.filterMap_congr fun j hj => ?_
    exact (h j (Nat.le_of_lt_succ (List.mem_range.mp hj))).value.pause?

end Run

end StepFlow
