/-
  StepFlow.Proofs.Run.Steps — what each part of a run does, by its visits and its ways.

  Telling changes the entries of the run, and of the executor the board and the logger only
  (`Keeps`); so do all parts of a run but two: a handler leaves its memory, and an ending
  clears the executor (`Clears`). `Goes` says that a run goes a way: to the next node, with a
  pause before it if its settings make one, or to its end, with the result that the ending
  has. `Takes` says so for runs whose pacing is a number.

  Proved, for every walk and every executor:
  (1) `fail_goes`, `depart_goes`: a node that fails, or is left, goes its way.
  (2) `handle_run`: a part of a handler leaves its memory and tells its messages; then the run
      goes on as the handler says.
  (3) `arrive_barred`, `arrive_open`: a node is executed exactly if nothing bars it.
  (4) `begin_run`, `begin_stranded`: a run begins at the first start node, or ends at once.
-/

import StepFlow.Proofs.Channel.Signals
import StepFlow.Proofs.Run.Visit

namespace StepFlow.Run

open Script (Memory)

/-- The same executor, except for its board and its logger. -/
structure Keeps (x y : Executor) : Prop where
  settings : y.settings = x.settings
  program : y.program = x.program
  heap : y.heap = x.heap
  locked : y.locked = x.locked

theorem Keeps.refl (x : Executor) : Keeps x x := ⟨rfl, rfl, rfl, rfl⟩

theorem Keeps.trans {x y z : Executor} (h : Keeps x y) (h' : Keeps y z) : Keeps x z :=
  ⟨h'.settings.trans h.settings, h'.program.trans h.program, h'.heap.trans h.heap, h'.locked.trans h.locked⟩

theorem Keeps.unlocked {x y : Executor} (h : Keeps x y) : Keeps { x with locked := false } { y with locked := false } :=
  ⟨h.settings, h.program, h.heap, rfl⟩

theorem Keeps.holding {x y : Executor} (h : Keeps x y) (heap : Heap) :
    Keeps { x with heap := heap } { y with heap := heap } :=
  ⟨h.settings, h.program, rfl, h.locked⟩

theorem log_keeps (scope : Log.Scope) (n : Log.Notice) (x : Executor) : Keeps x ((log scope n).run x).2 :=
  ⟨rfl, rfl, rfl, rfl⟩

theorem publish_keeps (scope : Log.Scope) (line : Line) (s : Signal) (x : Executor) :
    Keeps x ((publish scope line s).run x).2 := ⟨rfl, rfl, rfl, rfl⟩

/-! ## Telling -/

@[simp] theorem getExecutor_run (w : Walk) (x : Executor) :
    ((getThe Executor : Walking Executor).run w).run x = ((x, w), x) := rfl

@[simp] theorem getWalk_run (w : Walk) (x : Executor) : ((get : Walking Walk).run w).run x = ((w, w), x) := rfl

theorem walking_bind {α β : Type} (a : Walking α) (k : α → Walking β) (w : Walk) (x : Executor) :
    ((a >>= k).run w).run x =
      ((k ((a.run w).run x).1.1).run ((a.run w).run x).1.2).run ((a.run w).run x).2 := rfl

def Walk.telling (w : Walk) (es : List Entry) : Walk := { w with entries := w.entries ++ es }

theorem telling_nil (w : Walk) : w.telling [] = w := by simp [Walk.telling]

theorem telling_telling (w : Walk) (es fs : List Entry) : (w.telling es).telling fs = w.telling (es ++ fs) := by
  simp [Walk.telling]

theorem perform_run (n : Node) (es : List Effect) (w : Walk) (x : Executor) :
    ∃ y, ((perform n es).run w).run x = (((), w.telling (told n es)), y) ∧ Keeps x y := by
  induction es generalizing w x with
  | nil => exact ⟨x, by rw [told, telling_nil]; rfl, .refl x⟩
  | cons e es ih =>
    cases e with
    | emit message status =>
      let z := ((publish w.scope .logs (.entry (entryOf n message status))).run x).2
      obtain ⟨y, hy, hk⟩ := ih (w.telling [entryOf n message status]) z
      rw [telling_telling] at hy
      exact ⟨y, hy, (publish_keeps _ _ _ _).trans hk⟩
    | log notice =>
      obtain ⟨y, hy, hk⟩ := ih w ((log w.scope notice).run x).2
      exact ⟨y, hy, (log_keeps _ _ _).trans hk⟩

/-! ## Endings -/

def Ending.result (e : Ending) (w : Walk) : Result := ⟨w.runId, e.outcome, w.steps, w.entries ++ [e.entry]⟩

/-- The stage before a node, with a pause or without one. -/
def stageBefore (pace : Option Float) (next : Node) : Stage :=
  match pace with
  | none => .arriving next
  | some seconds => .pausing next seconds

/-- The run is over for its executor: the lock is released, and nothing is active unless a callback says so. -/
structure Clears (x y : Executor) : Prop where
  keeps : Keeps { x with locked := false } y
  inactive : x.rules.Spares .active → y.activeNode = none

theorem Clears.after {x y z : Executor} (hk : Keeps x y) (h : Clears y z) : Clears x z := by
  refine ⟨hk.unlocked.trans h.keeps, fun hq => h.inactive ?_⟩
  rw [Executor.rules, hk.program]
  exact hq

theorem setActive_none (scope : Log.Scope) {x : Executor} (hq : x.rules.Spares .active) :
    ((setActive scope none).run x).2.activeNode = none := by
  have hboard : ((setActive scope none).run x).2.board =
      ((Channel.perform x.rules (.set .active (.node none))).run.run x.board).2 := rfl
  rw [Executor.activeNode, hboard]
  cases hb : x.board.value? .active with
  | none =>
    rw [Channel.set_board, hb]
    dsimp only
    rw [hb]
  | some held =>
    obtain ⟨v, hv, hsame⟩ := Channel.set_value hq (.node none) hb
    have heq : v = .node none := by
      rcases hsame with h | h
      · exact h
      · exact (eq_of_beq h).symm
    rw [hv, heq]

/-- However a run ends, its executor is cleared. -/
theorem clears_inactive (scope : Log.Scope) {x y : Executor} (hk : Keeps { x with locked := false } y)
    (hb : y.board = ((setActive scope none).run x).2.board) : Clears x y := by
  refine ⟨hk, fun hq => ?_⟩
  rw [Executor.activeNode, hb]
  exact setActive_none scope hq

theorem raise_run (c : Crash) (w : Walk) (x : Executor) :
    ∃ y, ((raise c).run w).run x = ((.ended (.raised c), w.left), y) ∧ Clears x y :=
  ⟨_, rfl, clears_inactive w.scope ⟨rfl, rfl, rfl, rfl⟩ rfl⟩

/-- The run goes its way, with the pause that its settings make, or ends with the result of its ending. -/
inductive Goes (w : Walk) (x : Executor) : (Progress × Walk) × Executor → Way → Prop
  | ends {e : Ending} {y : Executor} : Clears x y →
      Goes w x ((.ended (.finished (e.result w)), (w.telling [e.entry]).left), y) (.ends e)
  | onto {pace : Option Float} {next : Node} {y : Executor} : x.settings.pause? x.heap = .ok pace → Keeps x y →
      Goes w x ((.going (stageBefore pace next), w), y) (.onto next)
  /-- The settings make no pause of the pacing. -/
  | raises {t : Trouble} {next : Node} {y : Executor} : x.settings.pause? x.heap = .error t → Clears x y →
      Goes w x ((.ended (.raised ⟨t.className, t.message⟩), w.left), y) (.onto next)

theorem Goes.after {w : Walk} {x y : Executor} {r : (Progress × Walk) × Executor} {way : Way} (hk : Keeps x y)
    (h : Goes w y r way) : Goes w x r way := by
  cases h with
  | ends hc => exact .ends (hc.after hk)
  | onto hp hk' =>
    rw [hk.settings, hk.heap] at hp
    exact .onto hp (hk.trans hk')
  | raises hp hc =>
    rw [hk.settings, hk.heap] at hp
    exact .raises hp (hc.after hk)

/-- An ending is told, and then the run is finished. -/
theorem ending_goes (scope : Log.Scope) (e : Ending) (w : Walk) (x : Executor) :
    Goes w x (((do tell scope e.entry; finish e.outcome : Walking Progress).run w).run x) (.ends e) := by
  refine .ends (Clears.after (publish_keeps scope .logs (.entry e.entry) x) ?_)
  exact clears_inactive w.scope ⟨rfl, rfl, rfl, rfl⟩ rfl

theorem fail_goes (n : Node) (f : NodeFault) (w : Walk) (x : Executor) :
    Goes w x (((fail n f).run w).run x) (.ends (.failed n f)) :=
  (ending_goes w.scope (.failed n f) w _).after (log_keeps w.scope (faultNotice n f) x)

/-- Being barred is told as a fault of the node is. -/
theorem barred_goes (n : Node) (f : NodeFault) (w : Walk) (x : Executor) :
    Goes w x (((fail n f).run w).run x) (.ends (.barred n f)) :=
  (ending_goes w.scope (.barred n f) w _).after (log_keeps w.scope (faultNotice n f) x)

/-! ## Pacing -/

/-- The pacing is a number, and this pause is made of it before every node but the first. -/
def Settings.Paced (s : Settings) (pace : Option Float) : Prop := ∀ h, s.pause? h = .ok pace

/-- The number is above zero. -/
def Settings.positive (p : Scalar) : Bool := (p.compareNumbers (.int 0)).any OrderOp.gt.holds

/-- Every number is a pacing, unless it is positive and too large to be divided. -/
theorem paced_number {s : Settings} {p : Scalar} {seconds : Float} (h : s.pacing = .scalar p)
    (hn : p.isNumber = true) (hs : Settings.positive p = true → Settings.seconds p = .ok seconds) :
    s.Paced (if Settings.positive p then some seconds else none) := by
  intro heap
  have horder : heap.order .gt s.pacing (.int 0) = .ok (Settings.positive p) := by
    rw [h]
    cases p with
    | null | str => cases hn
    | bool | int | float | nan => rfl
  unfold Settings.pause?
  rw [horder]
  cases hp : Settings.positive p with
  | false => rfl
  | true =>
    rw [h]
    show some <$> Settings.seconds p = _
    rw [hs hp]
    rfl

/-- With a number as pacing, the run goes its way or ends. -/
def Takes (pace : Option Float) (w : Walk) (x : Executor) (r : (Progress × Walk) × Executor) : Way → Prop
  | .onto next => r.1 = (.going (stageBefore pace next), w) ∧ Keeps x r.2
  | .ends e =>
    r.1 = (.ended (.finished (e.result w)), (w.telling [e.entry]).left) ∧ Keeps { x with locked := false } r.2

/-- An ending needs no pause. -/
theorem Goes.takes_ending {pace : Option Float} {w : Walk} {x : Executor} {r : (Progress × Walk) × Executor}
    {e : Ending} (h : Goes w x r (.ends e)) : Takes pace w x r (.ends e) := by
  cases h with
  | ends hc => exact ⟨rfl, hc.keeps⟩

theorem Goes.takes {pace : Option Float} {w : Walk} {x : Executor} {r : (Progress × Walk) × Executor} {way : Way}
    (h : Goes w x r way) (hp : x.settings.Paced pace) : Takes pace w x r way := by
  cases h with
  | ends hc => exact ⟨rfl, hc.keeps⟩
  | onto hpace hk =>
    rw [hp x.heap] at hpace
    cases hpace
    exact ⟨rfl, hk⟩
  | raises hpace hc =>
    rw [hp x.heap] at hpace
    cases hpace

/-! ## From node to node -/

theorem pause_eq (next : Node) (w : Walk) (x : Executor) :
    ((pause next).run w).run x =
      ((match x.settings.pause? x.heap with
        | .ok none => pure (.going (.arriving next))
        | .ok (some seconds) => pure (.going (.pausing next seconds))
        | .error t => raise ⟨t.className, t.message⟩ : Walking Progress).run w).run x := rfl

theorem pause_goes (next : Node) (w : Walk) (x : Executor) : Goes w x (((pause next).run w).run x) (.onto next) := by
  rw [pause_eq]
  cases hp : x.settings.pause? x.heap with
  | error t =>
    obtain ⟨y, hy, hc⟩ := raise_run ⟨t.className, t.message⟩ w x
    dsimp only
    rw [hy]
    exact .raises hp hc
  | ok pace =>
    cases pace with
    | none => exact .onto hp (.refl x)
    | some seconds => exact .onto hp (.refl x)

theorem depart_eq (n : Node) (t : Transition) (w : Walk) (x : Executor) :
    ((depart n t).run w).run x =
      ((if t.terminal then do
          tellNode w.scope n "Flow finished successfully" .success
          finish .success
        else match w.flow.next? n.id t.port with
          | none => do
            tellNode w.scope n (stopMessage t.port) .warning
            finish .stopped
          | some c => match w.flow.node? c.target with
            | none => do
              tellSystem (missingMessage c) .warning
              finish .stopped
            | some next => pause next : Walking Progress).run w).run x := rfl

theorem depart_goes (n : Node) (t : Transition) (w : Walk) (x : Executor) :
    Goes w x (((depart n t).run w).run x) (wayOut w.flow n t) := by
  rw [depart_eq]
  unfold wayOut
  by_cases ht : t.terminal = true
  · rw [if_pos ht, if_pos ht]
    exact ending_goes w.scope (.done n) w x
  · rw [if_neg ht, if_neg ht]
    cases w.flow.next? n.id t.port with
    | none => exact ending_goes w.scope (.unconnected n t.port) w x
    | some c =>
      dsimp only
      cases w.flow.node? c.target with
      | none => exact ending_goes w.scope (.dangling c) w x
      | some next => exact pause_goes next w x

/-! ## Visits -/

/-- The walk after a part of a handler. -/
def Walk.handled (w : Walk) (n : Node) (h : Handled) : Walk :=
  { w with env := h.memory.env, entries := w.entries ++ told n h.effects }

theorem handle_run (n : Node) (part : Memory → Handled) (w : Walk) (x : Executor) :
    ∃ y, ((handle n part).run w).run x =
        ((afterPart n (part ⟨w.env, x.heap⟩).reached).run (w.handled n (part ⟨w.env, x.heap⟩))).run y ∧
      Keeps { x with heap := (part ⟨w.env, x.heap⟩).memory.heap } y := by
  generalize hh : part ⟨w.env, x.heap⟩ = h
  obtain ⟨y, hy, hk⟩ := perform_run n h.effects { w with env := h.memory.env } { x with heap := h.memory.heap }
  refine ⟨y, ?_, hk⟩
  have hhandle : ((handle n part).run w).run x =
      ((do
          perform n h.effects
          afterPart n h.reached : Walking Progress).run { w with env := h.memory.env }).run
        { x with heap := h.memory.heap } := by
    rw [← hh]
    unfold afterPart
    rfl
  rw [hhandle, walking_bind, hy]
  rfl

/-- A handler that is over leaves its block first. -/
theorem afterPart_goes (n : Node) {r : Reached} (hr : ∀ c, r ≠ .calling c) (w : Walk) (x : Executor) :
    Goes w.left x (((afterPart n r).run w).run x) (wayFrom w.flow n (resumedResult r)) := by
  cases r with
  | done t => exact depart_goes n t w.left x
  | failed f => exact fail_goes n f w.left x
  | calling c => exact absurd rfl (hr c)

/-- A resumed handler is done or has failed. -/
theorem resume_settles (n : Node) (call : Http.Call) (a : Http.Answer) (m : Memory) (c : Http.Call) :
    (Handler.resume n call a m).reached ≠ .calling c := by
  unfold Handler.resume
  split
  · intro h
    cases h
  · intro h
    cases h

/-- The walk while the handler of a node runs. -/
def Walk.executing (w : Walk) (n : Node) : Walk :=
  { w with
    steps := w.steps + 1
    entries := w.entries ++ [entryOf n s!"Executing {n.type.text}" .info] }.entering (.node n.id)

/-- The walk after a visit. -/
def Walk.visited (w : Walk) (l : Leg) : Walk :=
  { w with steps := w.steps + 1, env := l.after.env, entries := w.entries ++ l.entries }

theorem arrive_some {n : Node} {w : Walk} {x : Executor} {f : NodeFault}
    (h : x.settings.bar? x.heap w.steps = some f) : ((arrive n).run w).run x = ((fail n f).run w).run x := by
  unfold arrive
  rw [walking_bind, getExecutor_run, walking_bind, getWalk_run]
  unfold Settings.bar? at h
  split at h
  · rename_i he
    cases h
    rw [he]
  · rename_i he
    cases h
    rw [he]
  · cases h

theorem arrive_none {n : Node} {w : Walk} {x : Executor} (h : x.settings.bar? x.heap w.steps = none) :
    ((arrive n).run w).run x = ((execute n).run w).run x := by
  unfold arrive
  rw [walking_bind, getExecutor_run, walking_bind, getWalk_run]
  unfold Settings.bar? at h
  split at h
  · cases h
  · cases h
  · rename_i he
    rw [he]

theorem execute_run (n : Node) (w : Walk) (x : Executor) :
    ∃ y, ((execute n).run w).run x = ((handle n (Handler.run n)).run (w.executing n)).run y ∧ Keeps x y :=
  ⟨_, rfl, rfl, rfl, rfl, rfl⟩

theorem arrive_barred {n : Node} {w : Walk} {x : Executor} {f : NodeFault}
    (h : x.settings.bar? x.heap w.steps = some f) : Goes w x (((arrive n).run w).run x) (.ends (.barred n f)) := by
  rw [arrive_some h]
  exact barred_goes n f w x

theorem arrive_open {n : Node} {w : Walk} {x : Executor} (h : x.settings.bar? x.heap w.steps = none) :
    ∃ y, ((arrive n).run w).run x =
        ((afterPart n (Handler.run n ⟨w.env, x.heap⟩).reached).run
          ((w.executing n).handled n (Handler.run n ⟨w.env, x.heap⟩))).run y ∧
      Keeps { x with heap := (Handler.run n ⟨w.env, x.heap⟩).memory.heap } y := by
  obtain ⟨y, hexecute, hk⟩ := execute_run n w x
  obtain ⟨z, hz, hkz⟩ := handle_run n (Handler.run n) (w.executing n) y
  have hm : Handler.run n ⟨(w.executing n).env, y.heap⟩ = Handler.run n ⟨w.env, x.heap⟩ := by rw [hk.heap]; rfl
  rw [hm] at hz hkz
  exact ⟨z, (arrive_none h).trans (hexecute.trans hz), (hk.holding _).trans hkz⟩

theorem visited_silent {l : Leg} {w : Walk} (h : ∀ c, (Handler.run l.node l.before).reached ≠ .calling c) :
    w.visited l = ((w.executing l.node).handled l.node (Handler.run l.node l.before)).left := by
  have hv : l.visit = _ := visit_silent l.answer h
  simp only [Walk.visited, Walk.executing, Walk.entering, Walk.handled, Leg.after, Leg.entries, hv,
    List.append_assoc, List.singleton_append]
  rfl

theorem visited_calling {l : Leg} {w : Walk} {c : Http.Call} (h : (Handler.run l.node l.before).reached = .calling c) :
    w.visited l =
      (((w.executing l.node).handled l.node (Handler.run l.node l.before)).handled l.node
        (Handler.resume l.node c l.answer (Handler.run l.node l.before).memory)).left := by
  have hv : l.visit = _ := visit_calling l.answer h
  simp only [Walk.visited, Walk.executing, Walk.entering, Walk.handled, Leg.after, Leg.entries, hv, told_append,
    List.append_assoc, List.cons_append]
  rfl

/-- A visit without a call is one step of the run. -/
theorem silent_visit {pace : Option Float} {l : Leg} {w : Walk} {x : Executor} (hp : x.settings.Paced pace)
    (hm : l.before = ⟨w.env, x.heap⟩) (hb : x.settings.bar? x.heap w.steps = none) (hc : l.visit.call = none) :
    Takes pace (w.visited l) { x with heap := l.after.heap } (((arrive l.node).run w).run x) (l.way w.flow) := by
  have hr := visit_call_none hc
  have hv : l.visit = _ := visit_silent l.answer hr
  obtain ⟨y, hy, hk⟩ := arrive_open (n := l.node) hb
  rw [← hm] at hy hk
  rw [hy, visited_silent hr, Leg.after, Leg.way, hv]
  exact ((afterPart_goes l.node hr _ y).after hk).takes hp

/-- A visit with a call is a step up to the call and one with its answer. Meanwhile the board
    and the logger of the executor may change. -/
theorem calling_visit {pace : Option Float} {l : Leg} {w : Walk} {x : Executor} {c : Http.Call}
    (hp : x.settings.Paced pace) (hm : l.before = ⟨w.env, x.heap⟩) (hb : x.settings.bar? x.heap w.steps = none)
    (hc : l.visit.call = some c) :
    ∃ v y, ((arrive l.node).run w).run x = ((.going (.calling l.node c), v), y) ∧
      Keeps { x with heap := (Handler.run l.node l.before).memory.heap } y ∧
      ∀ z, Keeps y z →
        Takes pace (w.visited l) { x with heap := l.after.heap }
          (((handle l.node (Handler.resume l.node c l.answer)).run v).run z) (l.way w.flow) := by
  have hr := visit_call_some hc
  have hv : l.visit = _ := visit_calling l.answer hr
  obtain ⟨y, hy, hk⟩ := arrive_open (n := l.node) hb
  rw [← hm] at hy hk
  rw [hr] at hy
  refine ⟨_, y, hy, hk, fun z hz => ?_⟩
  let v := (w.executing l.node).handled l.node (Handler.run l.node l.before)
  obtain ⟨u, hu, hku⟩ := handle_run l.node (Handler.resume l.node c l.answer) v z
  have hmz : (⟨v.env, z.heap⟩ : Memory) = (Handler.run l.node l.before).memory := by
    rw [hz.heap, hk.heap]
    rfl
  rw [hmz] at hu hku
  rw [hu, visited_calling hr, Leg.after, Leg.way, hv]
  have hkeeps := ((hk.trans hz).holding _).trans hku
  exact ((afterPart_goes l.node (resume_settles l.node c l.answer _) _ u).after hkeeps).takes hp

/-! ## Requests -/

def strandedEntry : Entry := systemEntry "No Start node found in flow" .error

def startingEntry : Entry := systemEntry "Starting execution" .info

/-- The walk of a run before its first node. -/
def Walk.begun (w : Walk) (m : Memory) : Walk := { w.telling [startingEntry] with env := m.env }

theorem begin_stranded {w : Walk} (h : w.flow.startNode? = none) (x : Executor) :
    ∃ y, ((begin.run w).run x) =
        ((.ended (.finished ⟨w.runId, .aborted, w.steps, w.entries ++ [strandedEntry]⟩),
          (w.telling [strandedEntry]).left), y) ∧
      Clears x y := by
  unfold begin
  rw [walking_bind, getWalk_run, h]
  refine ⟨_, rfl, Clears.after (publish_keeps w.scope .logs (.entry strandedEntry) x) ?_⟩
  exact clears_inactive w.scope ⟨rfl, rfl, rfl, rfl⟩ rfl

theorem begin_run {w : Walk} {n : Node} (h : w.flow.startNode? = some n) (x : Executor) :
    ∃ y, ((begin.run w).run x) = ((.going (.arriving n), w.begun (contextOf w.env x.heap)), y) ∧
      Keeps { x with heap := (contextOf w.env x.heap).heap } y := by
  unfold begin
  rw [walking_bind, getWalk_run, h]
  exact ⟨_, rfl, rfl, rfl, rfl, rfl⟩

/-- The executor after a request that it turns down: there is a record of it in the log. -/
def refused (caller : Log.Scope) (flow : Flow) (x : Executor) : Executor :=
  ((log caller ⟨.warning, "Run rejected, another run is in progress", [("flow_id", .str flow.id)], false⟩).run x).2

theorem refused_keeps (caller : Log.Scope) (flow : Flow) (x : Executor) : Keeps x (refused caller flow x) :=
  log_keeps _ _ x

/-- What a request comes to, by the lock. -/
theorem request_run (caller : Log.Scope) (tag : String) (flow : Flow) (seed : Env) (x : Executor) :
    (request caller tag flow seed).run x =
      if x.locked then (.inr (.finished .rejected), refused caller flow x)
      else
        let r := (begin.run (.initial caller tag flow seed)).run { x with locked := true }
        (ofProgress r.1, r.2) := by
  have hrequest : (request caller tag flow seed).run x =
      ((if x.locked then do
          log caller ⟨.warning, "Run rejected, another run is in progress", [("flow_id", .str flow.id)], false⟩
          pure (.inr (.finished .rejected))
        else do
          modify fun x => { x with locked := true }
          ofProgress <$> begin.run (.initial caller tag flow seed) : StateM Executor Next).run x) := rfl
  rw [hrequest]
  by_cases hx : x.locked = true
  · rw [if_pos hx, if_pos hx]
    rfl
  · rw [if_neg hx, if_neg hx]
    rfl

end StepFlow.Run
