/-
  StepFlow.Proofs.Run.Deeds — what runs do that the process log tells of.

  A run shows signals on its board, and notes things in the log. Of a signal the log tells if
  callbacks fail to which it is shown, one notice for each failure. What a turn does is told
  before it from where the run stands (`Standing.deeds`): each deed with its place, which is
  the node whose handler does it, or none for the run itself.
  - Every notice is written in the scope that belongs to the place of its deed (`Did`).

  Proved, for every executor and whatever its callbacks do:
  (1) `perform_does`, `ending_does`, `depart_does`: the parts of a run do their deeds.
  (2) `handle_does`: the part of a handler does the deeds of its effects at its node, and what
      comes after it is done by the run itself.
  (3) `turn_does`, `begin_does`: so it is with whole turns, and with the beginning of a run.
-/

import StepFlow.Proofs.Run.Course

namespace StepFlow.Run

open Script (Memory)

/-! ## Deeds -/

inductive Deed where
  | shows (s : Signal)
  | notes (n : Log.Notice)

/-- The id of the node whose handler is executing, if one is. -/
abbrev Place := Option String

namespace Deed

/-- The board after the deed. -/
def board (rules : Channel.Rules Line Signal) (b : Channel.Board Line Signal) : Deed → Channel.Board Line Signal
  | .shows s => showOn rules b s
  | .notes _ => b

/-- What is noted of the deed. -/
def notices (rules : Channel.Rules Line Signal) (b : Channel.Board Line Signal) : Deed → List Log.Notice
  | .shows s => ((showOn rules b s).failures.drop b.failures.length).map failureNotice
  | .notes n => [n]

end Deed

def boardAfter (rules : Channel.Rules Line Signal) (b : Channel.Board Line Signal) (ds : List (Place × Deed)) :
    Channel.Board Line Signal := ds.foldl (fun b d => d.2.board rules b) b

/-- What is noted of deeds, in turn. -/
def noted (rules : Channel.Rules Line Signal) :
    Channel.Board Line Signal → List (Place × Deed) → List (Place × Log.Notice)
  | _, [] => []
  | b, d :: ds => (d.2.notices rules b).map (d.1, ·) ++ noted rules (d.2.board rules b) ds

theorem noted_append (rules : Channel.Rules Line Signal) (b : Channel.Board Line Signal) (ds es : List (Place × Deed)) :
    noted rules b (ds ++ es) = noted rules b ds ++ noted rules (boardAfter rules b ds) es := by
  induction ds generalizing b with
  | nil => rfl
  | cons d ds ih =>
    rw [List.cons_append, noted, noted, ih, List.append_assoc]
    rfl

/-! ## What turns do -/

def executingNotice (n : Node) : Log.Notice :=
  ⟨.info, "Executing node", [(Log.nodeField, .str n.id), ("node_type", .str n.type.text)], false⟩

def startingNotice (flow : Flow) : Log.Notice :=
  ⟨.info, "Starting flow run", [("flow_id", .str flow.id), ("node_count", .int flow.nodes.length)], false⟩

def finishedNotice (flow : Flow) (steps : Nat) (o : Outcome) : Log.Notice :=
  ⟨.info, "Run finished", [("flow_id", .str flow.id), ("outcome", .str o.text), ("steps", .int steps)], false⟩

/-- What is noted of a request that is turned down. -/
def rejectedNotice (flow : Flow) : Log.Notice :=
  ⟨.warning, "Run rejected, another run is in progress", [("flow_id", .str flow.id)], false⟩

/-- What a run does that ends with this entry. -/
def closing (flow : Flow) (steps : Nat) (e : Entry) (o : Outcome) : List Deed :=
  [.shows (.entry e), .shows (.node none), .notes (finishedNotice flow steps o)]

def Ending.deeds (e : Ending) (flow : Flow) (steps : Nat) : List Deed :=
  match e with
  | .failed n f | .barred n f => .notes (faultNotice n f) :: closing flow steps e.entry e.outcome
  | .done _ | .unconnected .. | .dangling _ => closing flow steps e.entry e.outcome

/-- What a run does on its way, with these settings and this heap. -/
def Way.deeds (way : Way) (s : Settings) (h : Heap) (flow : Flow) (steps : Nat) : List Deed :=
  match way with
  | .ends e => e.deeds flow steps
  | .onto _ =>
    match s.pause? h with
    | .ok _ => []
    | .error _ => [.shows (.node none)]

def Effect.deed (n : Node) : Effect → Deed
  | .emit message status => .shows (.entry (entryOf n message status))
  | .log notice => .notes notice

/-- The deeds of the run itself. -/
def byRun (ds : List Deed) : List (Place × Deed) := ds.map (none, ·)

/-- The deeds of the handler of a node. -/
def byHandler (n : Node) (ds : List Deed) : List (Place × Deed) := ds.map (some n.id, ·)

/-- What comes of the part of a handler: its effects, and then the way that the run goes. -/
def Handled.deeds (h : Handled) (n : Node) (s : Settings) (flow : Flow) (steps : Nat) : List (Place × Deed) :=
  byHandler n (h.effects.map (·.deed n)) ++
    match h.reached with
    | .calling _ => []
    | r => byRun ((wayFrom flow n (resumedResult r)).deeds s h.memory.heap flow steps)

/-- What a run does before the handler of a node. -/
def opening (n : Node) : List Deed :=
  [.shows (.node (some n.id)), .shows (.entry (entryOf n s!"Executing {n.type.text}" .info)), .notes (executingNotice n)]

/-- What a run does that is at this stage when this event comes. -/
def Stage.deeds (stage : Stage) (w : Walk) (x : Executor) (e : Event) : List (Place × Deed) :=
  match stage, e with
  | .arriving n, .step =>
    match x.settings.bar? x.heap w.steps with
    | some f => byRun ((Ending.barred n f).deeds w.flow w.steps)
    | none => byRun (opening n) ++ (Handler.run n ⟨w.env, x.heap⟩).deeds n x.settings w.flow (w.steps + 1)
  | .calling n c, .answer a => (Handler.resume n c a ⟨w.env, x.heap⟩).deeds n x.settings w.flow w.steps
  | .pausing .., .wake (.error _) => byRun [.shows (.node none)]
  | _, _ => []

/-- What a run does when it begins. -/
def beginning (flow : Flow) : List (Place × Deed) :=
  byRun (match flow.startNode? with
    | none => closing flow 0 strandedEntry .aborted
    | some _ => [.notes (startingNotice flow), .shows (.entry startingEntry)])

/-! ## Doing -/

/-- The deeds have been done in turn, each notice written in the scope of its place, and nothing
    else has happened to the board and the logger. -/
structure Did (scopeAt : Place → Log.Scope) (x : Executor) (ds : List (Place × Deed)) (y : Executor) : Prop where
  board : y.board = boardAfter x.rules x.board ds
  logger : y.logger = (noted x.rules x.board ds).foldl (fun l n => l.write (scopeAt n.1) n.2) x.logger
  program : y.program = x.program

section

variable {scopeAt : Place → Log.Scope}

theorem Did.nothing {x y : Executor} (hb : y.board = x.board) (hl : y.logger = x.logger)
    (hp : y.program = x.program) : Did scopeAt x [] y := ⟨hb, hl, hp⟩

theorem Did.trans {x y z : Executor} {ds es : List (Place × Deed)} (h : Did scopeAt x ds y) (h' : Did scopeAt y es z) :
    Did scopeAt x (ds ++ es) z := by
  have hrules : y.rules = x.rules := by rw [Executor.rules, Executor.rules, h.program]
  refine ⟨?_, ?_, h'.program.trans h.program⟩
  · rw [h'.board, h.board, hrules, boardAfter, boardAfter, boardAfter, List.foldl_append]
  · rw [h'.logger, h.logger, h.board, hrules, noted_append, List.foldl_append]

variable {α β : Type}

/-- The part of a run does these deeds. -/
def Does (scopeAt : Place → Log.Scope) (act : Walking α) (w : Walk) (x : Executor) (ds : List (Place × Deed)) : Prop :=
  Did scopeAt x ds ((act.run w).run x).2

variable {w : Walk} {x : Executor} {place : Place}

theorem Does.bind {a : Walking α} {k : α → Walking β} {ds es : List (Place × Deed)} (ha : Does scopeAt a w x ds)
    (hk : Does scopeAt (k ((a.run w).run x).1.1) ((a.run w).run x).1.2 ((a.run w).run x).2 es) :
    Does scopeAt (a >>= k) w x (ds ++ es) := by
  unfold Does
  rw [walking_bind]
  exact Did.trans ha hk

theorem Does.cons {a : Walking α} {k : α → Walking β} {d : Place × Deed} {es : List (Place × Deed)}
    (ha : Does scopeAt a w x [d])
    (hk : Does scopeAt (k ((a.run w).run x).1.1) ((a.run w).run x).1.2 ((a.run w).run x).2 es) :
    Does scopeAt (a >>= k) w x (d :: es) := ha.bind hk

theorem Does.quiet {a : Walking α} {k : α → Walking β} {es : List (Place × Deed)} (ha : Does scopeAt a w x [])
    (hk : Does scopeAt (k ((a.run w).run x).1.1) ((a.run w).run x).1.2 ((a.run w).run x).2 es) :
    Does scopeAt (a >>= k) w x es := ha.bind hk

theorem Does.get {k : Walk → Walking α} {ds : List (Place × Deed)} (h : Does scopeAt (k w) w x ds) :
    Does scopeAt (get >>= k) w x ds := h

/-! ## Parts of a run -/

theorem log_does {scope : Log.Scope} (hs : scopeAt place = scope) (n : Log.Notice) :
    Does scopeAt (log scope n : Walking Unit) w x [(place, .notes n)] := by
  subst hs
  exact ⟨rfl, rfl, rfl⟩

theorem shows_does {scope : Log.Scope} (hs : scopeAt place = scope) (s : Signal) :
    Did scopeAt x [(place, .shows s)] ((onBoard scope fun x => showOn x.rules x.board s).run x).2 := by
  subst hs
  refine ⟨rfl, ?_, rfl⟩
  simp only [noted, Deed.notices, List.append_nil, List.map_map, List.foldl_map]
  rfl

theorem setActive_does {scope : Log.Scope} (hs : scopeAt place = scope) (id : Option String) :
    Does scopeAt (setActive scope id : Walking Unit) w x [(place, .shows (.node id))] := shows_does hs (.node id)

theorem tell_does {scope : Log.Scope} (hs : scopeAt place = scope) (e : Entry) :
    Does scopeAt (tell scope e) w x [(place, .shows (.entry e))] := shows_does hs (.entry e)

theorem perform_does (n : Node) (es : List Effect) (hs : scopeAt place = w.scope) :
    Does scopeAt (perform n es) w x (es.map fun e => (place, e.deed n)) := by
  induction es generalizing w x with
  | nil => exact .nothing rfl rfl rfl
  | cons e es ih =>
    cases e with
    | emit message status => exact .get (.cons (tell_does hs _) (ih hs))
    | log notice => exact .get (.cons (log_does hs notice) (ih hs))

theorem leave_does : Does scopeAt leave w x [] := .nothing rfl rfl rfl

theorem finish_does (o : Outcome) (hs : scopeAt none = w.scope) :
    Does scopeAt (finish o) w x
      [(none, .shows (.node none)), (none, .notes (finishedNotice w.flow w.steps o))] :=
  .get (.cons (setActive_does hs none) (.get (.cons (log_does hs _) (.nothing rfl rfl rfl))))

theorem raise_does (c : Crash) (hs : scopeAt none = w.scope) :
    Does scopeAt (raise c) w x [(none, .shows (.node none))] :=
  .get (.cons (setActive_does hs none) (.nothing rfl rfl rfl))

theorem closing_does (e : Entry) (o : Outcome) (hs : scopeAt none = w.scope) :
    Does scopeAt (do tell w.scope e; finish o) w x (byRun (closing w.flow w.steps e o)) :=
  .cons (tell_does hs e) (finish_does o hs)

/-- A fault is noted, and ends the run. -/
theorem fail_does (n : Node) (f : NodeFault) (hs : scopeAt none = w.scope) :
    Does scopeAt (fail n f) w x (byRun ((Ending.failed n f).deeds w.flow w.steps)) :=
  .get (.cons (log_does hs _) (closing_does _ .aborted hs))

theorem pause_does (next : Node) (hs : scopeAt none = w.scope) :
    Does scopeAt (pause next) w x (byRun ((Way.onto next).deeds x.settings x.heap w.flow w.steps)) := by
  unfold Does
  rw [pause_eq, Way.deeds]
  cases hp : x.settings.pause? x.heap with
  | error t => exact raise_does _ hs
  | ok pace =>
    cases pace with
    | none => exact .nothing rfl rfl rfl
    | some seconds => exact .nothing rfl rfl rfl

theorem depart_does (n : Node) (t : Transition) (hs : scopeAt none = w.scope) :
    Does scopeAt (depart n t) w x (byRun ((wayOut w.flow n t).deeds x.settings x.heap w.flow w.steps)) := by
  unfold Does
  rw [depart_eq]
  unfold wayOut
  by_cases ht : t.terminal = true
  · rw [if_pos ht, if_pos ht]
    exact closing_does _ .success hs
  · rw [if_neg ht, if_neg ht]
    cases w.flow.next? n.id t.port with
    | none => exact closing_does _ .stopped hs
    | some c =>
      dsimp only
      cases w.flow.node? c.target with
      | none => exact closing_does _ .stopped hs
      | some next => exact pause_does next hs

/-- A handler that is over leaves its block before anything else is done. -/
theorem afterPart_does (n : Node) (r : Reached) (hs : scopeAt none = w.left.scope) :
    Does scopeAt (afterPart n r) w x
      (match r with
        | .calling _ => []
        | r => byRun ((wayFrom w.flow n (resumedResult r)).deeds x.settings x.heap w.flow w.steps)) := by
  cases r with
  | done t => exact .quiet leave_does (depart_does n t hs)
  | failed f => exact .quiet leave_does (fail_does n f hs)
  | calling c => exact .nothing rfl rfl rfl

/-- The effects of a handler are done at its node, and all else by the run itself. -/
theorem handle_does (n : Node) (part : Memory → Handled) (hs : scopeAt (some n.id) = w.scope)
    (hleft : scopeAt none = w.left.scope) :
    Does scopeAt (handle n part) w x ((part ⟨w.env, x.heap⟩).deeds n x.settings w.flow w.steps) := by
  let h := part ⟨w.env, x.heap⟩
  let v : Walk := { w with env := h.memory.env }
  let y : Executor := { x with heap := h.memory.heap }
  have hperform : Does scopeAt (perform n h.effects) v y (byHandler n (h.effects.map (·.deed n))) := by
    rw [byHandler, List.map_map]
    exact perform_does n h.effects hs
  obtain ⟨z, hz, hk⟩ := perform_run n h.effects v y
  have hafter : Does scopeAt (afterPart n h.reached) (v.telling (told n h.effects)) z _ := afterPart_does n h.reached hleft
  rw [hk.settings, hk.heap] at hafter
  have hboth : Does scopeAt (do perform n h.effects; afterPart n h.reached) v y (h.deeds n x.settings w.flow w.steps) := by
    refine hperform.bind ?_
    rw [hz]
    exact hafter
  exact ⟨hboth.board, hboth.logger, hboth.program⟩

/-! ## Turns -/

theorem begin_does (hs : scopeAt none = w.scope) (hw : w.steps = 0) : Does scopeAt begin w x (beginning w.flow) := by
  unfold Does begin beginning
  rw [walking_bind, getWalk_run]
  cases w.flow.startNode? with
  | none =>
    have hclosing := closing_does (x := x) strandedEntry .aborted hs
    rw [hw] at hclosing
    exact hclosing
  | some n =>
    refine Does.cons (log_does hs (startingNotice w.flow)) (Does.cons (tell_does hs startingEntry) ?_)
    exact .nothing rfl rfl rfl

/-- The walk is in the scope of its place: that of the run, which it comes back to when the
    handler is over that waits for an answer. -/
def Within (scopeAt : Place → Log.Scope) (w : Walk) : Stage → Prop
  | .arriving _ | .pausing .. => scopeAt none = w.scope
  | .calling n _ => scopeAt (some n.id) = w.scope ∧ scopeAt none = w.left.scope

variable (hin : ∀ id, scopeAt (some id) = (scopeAt none).bind (.node id))
include hin

theorem execute_does (n : Node) (hs : scopeAt none = w.scope) :
    Does scopeAt (execute n) w x
      (byRun (opening n) ++ (Handler.run n ⟨w.env, x.heap⟩).deeds n x.settings w.flow (w.steps + 1)) := by
  have hinside : scopeAt (some n.id) = (w.executing n).scope := by rw [hin, hs]; rfl
  have hleft : scopeAt none = (w.executing n).left.scope := by
    rw [hs]
    exact (Log.Scope.bind_before w.scope (.node n.id)).symm
  refine .quiet (.nothing rfl rfl rfl) (.get (.cons (setActive_does hs _) (.cons (tell_does hs _) (.cons (log_does hs _) ?_))))
  exact .quiet (.nothing rfl rfl rfl) (handle_does n _ hinside hleft)

theorem turn_does (stage : Stage) (e : Event) (hw : Within scopeAt w stage) :
    Does scopeAt (Process.turn ⟨w, stage⟩ e) w x (stage.deeds w x e) := by
  cases stage with
  | arriving n =>
    cases e with
    | step =>
      show Does scopeAt (arrive n) w x _
      unfold Stage.deeds Does
      dsimp only
      cases hb : x.settings.bar? x.heap w.steps with
      | some f =>
        rw [arrive_some hb]
        exact fail_does n f hw
      | none =>
        rw [arrive_none hb]
        exact execute_does hin n hw
    | answer | wake => exact .nothing rfl rfl rfl
  | calling n c =>
    cases e with
    | answer a => exact handle_does n _ hw.1 hw.2
    | step | wake => exact .nothing rfl rfl rfl
  | pausing n seconds =>
    cases e with
    | wake r =>
      cases r with
      | ok u => exact .nothing rfl rfl rfl
      | error c => exact raise_does c hw
    | step | answer => exact .nothing rfl rfl rfl

end

end StepFlow.Run
