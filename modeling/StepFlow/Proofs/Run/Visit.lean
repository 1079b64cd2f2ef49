/-
  StepFlow.Proofs.Run.Visit — a run as a tour of its flow.

  A node is visited once for each time it is executed (`visit`): its handler runs, and if it
  calls it is resumed with the answer. Where the run goes from there is its way (`Way`): on to
  a node, or to one of five endings, each with its outcome and the one entry that it tells. A
  tour (`Tour`) is the visits of a whole run with its ending. It knows of no executor: the
  channels, the log and the pauses have no part in it.

  Proved:
  (1) `Tour.unique`: where a run starts and how its calls are answered determine its tour.
  (2) `tour_exists`: with a whole number as budget there is one, and it makes at most as many
      visits as the budget allows.
-/

import StepFlow.Http.Scripted
import StepFlow.Run.Executor

namespace StepFlow.Run

open Script (Memory)

/-! ## Visits -/

def entryOf (n : Node) (message : String) (status : Status) : Entry := ⟨n.id, n.data.label, message, status⟩

def systemEntry (message : String) (status : Status) : Entry := ⟨systemId, systemLabel, message, status⟩

/-- The messages of effects, as entries of a node. -/
def told (n : Node) : List Effect → List Entry
  | [] => []
  | .emit message status :: rest => entryOf n message status :: told n rest
  | .log _ :: rest => told n rest

theorem told_append (n : Node) (es fs : List Effect) : told n (es ++ fs) = told n es ++ told n fs := by
  induction es with
  | nil => rfl
  | cons e es ih =>
    cases e with
    | emit => rw [List.cons_append, told, told, ih, List.cons_append]
    | log => exact ih

/-- What a node's handler does, all told. -/
structure Visit where
  effects : List Effect
  memory : Memory
  result : Except NodeFault Transition
  call : Option Http.Call

/-- A handler that is resumed makes no other call. -/
def resumedResult : Reached → Except NodeFault Transition
  | .done t => .ok t
  | .failed f => .error f
  | .calling _ => .ok .follow

/-- Visit a node, with the answer to the call that its handler makes, if it makes one. -/
def visit (n : Node) (m : Memory) (a : Http.Answer) : Visit :=
  let h := Handler.run n m
  match h.reached with
  | .done t => ⟨h.effects, h.memory, .ok t, none⟩
  | .failed f => ⟨h.effects, h.memory, .error f, none⟩
  | .calling c =>
    let h' := Handler.resume n c a h.memory
    ⟨h.effects ++ h'.effects, h'.memory, resumedResult h'.reached, some c⟩

theorem visit_done {n : Node} {m m' : Memory} {es : List Effect} {t : Transition} (a : Http.Answer)
    (h : Handler.run n m = ⟨es, m', .done t⟩) : visit n m a = ⟨es, m', .ok t, none⟩ := by
  simp only [visit, h]

theorem visit_failed {n : Node} {m m' : Memory} {es : List Effect} {f : NodeFault} (a : Http.Answer)
    (h : Handler.run n m = ⟨es, m', .failed f⟩) : visit n m a = ⟨es, m', .error f, none⟩ := by
  simp only [visit, h]

theorem visit_silent {n : Node} {m : Memory} (a : Http.Answer) (h : ∀ c, (Handler.run n m).reached ≠ .calling c) :
    visit n m a =
      ⟨(Handler.run n m).effects, (Handler.run n m).memory, resumedResult (Handler.run n m).reached, none⟩ := by
  cases hr : (Handler.run n m).reached with
  | done t => simp only [visit, hr, resumedResult]
  | failed f => simp only [visit, hr, resumedResult]
  | calling c => exact absurd hr (h c)

theorem visit_calling {n : Node} {m : Memory} {c : Http.Call} (a : Http.Answer)
    (h : (Handler.run n m).reached = .calling c) :
    visit n m a =
      ⟨(Handler.run n m).effects ++ (Handler.resume n c a (Handler.run n m).memory).effects,
        (Handler.resume n c a (Handler.run n m).memory).memory,
        resumedResult (Handler.resume n c a (Handler.run n m).memory).reached, some c⟩ := by
  simp only [visit, h]

theorem visit_call_none {n : Node} {m : Memory} {a : Http.Answer} (h : (visit n m a).call = none) (c : Http.Call) :
    (Handler.run n m).reached ≠ .calling c := by
  intro hr
  rw [visit_calling a hr] at h
  cases h

theorem visit_call_some {n : Node} {m : Memory} {a : Http.Answer} {c : Http.Call} (h : (visit n m a).call = some c) :
    (Handler.run n m).reached = .calling c := by
  cases hr : (Handler.run n m).reached with
  | calling d =>
    rw [visit_calling a hr] at h
    cases h
    rfl
  | done t | failed f =>
    have hnone : (visit n m a).call = none := by simp only [visit, hr]
    rw [hnone] at h
    cases h

/-- The truth of a node's condition; that of a blank one is false. -/
def conditionHolds (n : Node) (m : Memory) : Bool :=
  match nonblank? n.data.condition with
  | none => false
  | some text =>
    match (Script.evaluate text m.env).run.run m.heap with
    | (.ok v, h) => h.truth v
    | (.error _, _) => false

def decidedEffect (b : Bool) : Effect := .emit s!"Condition evaluated to: {portOf b}" .info

/-- What is told before a call: a message, and a notice for the log. -/
def callEffects (n : Node) (call : Http.Call) : List Effect :=
  [.emit s!"Calling API: {call.method} {call.url}" .info,
    .log ⟨.info, "Calling API",
      [(Log.nodeField, .str n.id), ("method", .str call.method), ("url", .str call.url)], false⟩]

def answeredEffect : Effect := .emit "API Response received" .success

theorem visit_script {n : Node} {m m' : Memory} {text : String} (a : Http.Answer) (ht : n.type = .script)
    (hs : nonblank? n.data.script = some text) (hx : Script.execute text readonlyNames m = (.ok (), m')) :
    visit n m a = ⟨[], m', .ok .follow, none⟩ :=
  visit_done a (by simp only [Handler.run, ht, Handler.script, hs, hx])

theorem visit_decided {n : Node} {m : Memory} {text : String} {v : Value} {h : Heap} (a : Http.Answer)
    (ht : n.type = .decision) (hs : nonblank? n.data.condition = some text)
    (hx : (Script.evaluate text m.env).run.run m.heap = (.ok v, h)) :
    visit n m a =
      ⟨[decidedEffect (h.truth v)], { m with heap := h }, .ok ⟨some (portOf (h.truth v)), false⟩, none⟩ := by
  have hrun : Handler.run n m = decided { m with heap := h } (h.truth v) := by
    simp only [Handler.run, ht, Handler.decision, hs, hx]
  exact visit_done a hrun

/-- A handler stores what it is answered. -/
theorem resume_ok {n : Node} {c : Http.Call} {a : Http.Answer} {j : Json} (h : (Http.settle c a).1 = .ok j) (m : Memory) :
    Handler.resume n c a m =
      ⟨(Http.settle c a).2.map .log ++ [answeredEffect],
        Handler.store { m with heap := (m.heap.ofJson j).2 } n.id (m.heap.ofJson j).1, .done .follow⟩ := by
  unfold Handler.resume
  generalize Http.settle c a = r at h ⊢
  obtain ⟨r, notices⟩ := r
  cases h
  rfl

/-- A handler whose call has failed leaves its memory. -/
theorem resume_error {n : Node} {c : Http.Call} {a : Http.Answer} {f : Http.Fault} (h : (Http.settle c a).1 = .error f)
    (m : Memory) : Handler.resume n c a m = ⟨(Http.settle c a).2.map .log, m, .failed (.http f)⟩ := by
  unfold Handler.resume
  generalize Http.settle c a = r at h ⊢
  obtain ⟨r, notices⟩ := r
  cases h
  rfl

/-- The visits that there are, by the type of the node. -/
inductive Visits (n : Node) (m : Memory) (a : Http.Answer) : Visit → Prop
  | idle : n.type = .start ∨ n.type = .task → Visits n m a ⟨[], m, .ok .follow, none⟩
  | finish : n.type = .finish → Visits n m a ⟨[], m, .ok ⟨none, true⟩, none⟩
  | blank : n.type = .script → nonblank? n.data.script = none → Visits n m a ⟨[], m, .ok .follow, none⟩
  | script {text : String} {m' : Memory} :
    n.type = .script → nonblank? n.data.script = some text →
      Script.execute text readonlyNames m = (.ok (), m') → Visits n m a ⟨[], m', .ok .follow, none⟩
  | scriptFails {text : String} {m' : Memory} {f : Script.Fault} :
    n.type = .script → nonblank? n.data.script = some text →
      Script.execute text readonlyNames m = (.error f, m') → Visits n m a ⟨[], m', .error (.script f), none⟩
  | undecided : n.type = .decision → nonblank? n.data.condition = none →
      Visits n m a ⟨[decidedEffect false], m, .ok ⟨some (portOf false), false⟩, none⟩
  | decided {text : String} {v : Value} {h : Heap} :
    n.type = .decision → nonblank? n.data.condition = some text →
      (Script.evaluate text m.env).run.run m.heap = (.ok v, h) →
        Visits n m a ⟨[decidedEffect (h.truth v)], { m with heap := h }, .ok ⟨some (portOf (h.truth v)), false⟩, none⟩
  | conditionFails {text : String} {f : Script.Fault} {h : Heap} :
    n.type = .decision → nonblank? n.data.condition = some text →
      (Script.evaluate text m.env).run.run m.heap = (.error f, h) →
        Visits n m a ⟨[], { m with heap := h }, .error (.script f), none⟩
  | unconfigured : n.type = .api → n.data.apiConfig = none → Visits n m a ⟨[], m, .ok .follow, none⟩
  | answered {c : ApiConfig} {j : Json} {notices : List Log.Notice} :
    n.type = .api → n.data.apiConfig = some c → Http.settle (callOf c) a = (.ok j, notices) →
      Visits n m a
        ⟨callEffects n (callOf c) ++ (notices.map .log ++ [answeredEffect]),
          Handler.store { m with heap := (m.heap.ofJson j).2 } n.id (m.heap.ofJson j).1, .ok .follow, some (callOf c)⟩
  | unanswered {c : ApiConfig} {f : Http.Fault} {notices : List Log.Notice} :
    n.type = .api → n.data.apiConfig = some c → Http.settle (callOf c) a = (.error f, notices) →
      Visits n m a ⟨callEffects n (callOf c) ++ notices.map .log, m, .error (.http f), some (callOf c)⟩

theorem visit_cases (n : Node) (m : Memory) (a : Http.Answer) : Visits n m a (visit n m a) := by
  cases ht : n.type with
  | start | task =>
    have hrun : Handler.run n m = ⟨[], m, .done .follow⟩ := by simp only [Handler.run, ht]
    rw [visit_done a hrun]
    exact .idle (by simp [ht])
  | finish =>
    have hrun : Handler.run n m = ⟨[], m, .done ⟨none, true⟩⟩ := by simp only [Handler.run, ht]
    rw [visit_done a hrun]
    exact .finish ht
  | script =>
    cases hs : nonblank? n.data.script with
    | none =>
      have hrun : Handler.run n m = ⟨[], m, .done .follow⟩ := by simp only [Handler.run, ht, Handler.script, hs]
      rw [visit_done a hrun]
      exact .blank ht hs
    | some text =>
      rcases hx : Script.execute text readonlyNames m with ⟨r, m'⟩
      cases r with
      | ok u =>
        rw [visit_script a ht hs hx]
        exact .script ht hs hx
      | error f =>
        have hrun : Handler.run n m = ⟨[], m', .failed (.script f)⟩ := by
          simp only [Handler.run, ht, Handler.script, hs, hx]
        rw [visit_failed a hrun]
        exact .scriptFails ht hs hx
  | decision =>
    cases hs : nonblank? n.data.condition with
    | none =>
      have hrun : Handler.run n m = decided m false := by simp only [Handler.run, ht, Handler.decision, hs]
      rw [visit_done a hrun]
      exact .undecided ht hs
    | some text =>
      rcases hx : (Script.evaluate text m.env).run.run m.heap with ⟨r, h⟩
      cases r with
      | ok v =>
        rw [visit_decided a ht hs hx]
        exact .decided ht hs hx
      | error f =>
        have hrun : Handler.run n m = ⟨[], { m with heap := h }, .failed (.script f)⟩ := by
          simp only [Handler.run, ht, Handler.decision, hs, hx]
        rw [visit_failed a hrun]
        exact .conditionFails ht hs hx
  | api =>
    cases hc : n.data.apiConfig with
    | none =>
      have hrun : Handler.run n m = ⟨[], m, .done .follow⟩ := by simp only [Handler.run, ht, Handler.api, hc]
      rw [visit_done a hrun]
      exact .unconfigured ht hc
    | some c =>
      have hrun : Handler.run n m = ⟨callEffects n (callOf c), m, .calling (callOf c)⟩ := by
        simp only [Handler.run, ht, Handler.api, hc, callEffects]
      rw [visit_calling a (by rw [hrun]), hrun]
      rcases hx : Http.settle (callOf c) a with ⟨r, notices⟩
      cases r with
      | ok j =>
        simp only [Handler.resume, hx]
        exact .answered ht hc hx
      | error f =>
        simp only [Handler.resume, hx]
        exact .unanswered ht hc hx

/-- The way out of a node depends on its type and on its condition only. -/
theorem visit_ok {n : Node} {m : Memory} {a : Http.Answer} {t : Transition} (h : (visit n m a).result = .ok t) :
    t = ⟨if n.type = .decision then some (portOf (conditionHolds n m)) else none, n.type == .finish⟩ := by
  have hv := visit_cases n m a
  generalize visit n m a = v at h hv
  cases hv with
  | idle ht =>
    cases h
    rcases ht with ht | ht <;> rw [ht] <;> rfl
  | finish ht | blank ht | script ht | unconfigured ht | answered ht =>
    cases h
    rw [ht]
    rfl
  | undecided ht hc =>
    cases h
    rw [ht, conditionHolds, hc]
    rfl
  | decided ht hc hx =>
    cases h
    rw [ht, conditionHolds, hc]
    simp only [hx]
    rfl
  | scriptFails | conditionFails | unanswered => cases h

/-! ## Ways -/

inductive Ending where
  | done (n : Node)
  | failed (n : Node) (f : NodeFault)
  /-- The node was reached, but its budget allows no visit. -/
  | barred (n : Node) (f : NodeFault)
  | unconnected (n : Node) (port : Option String)
  | dangling (c : Connection)

namespace Ending

def outcome : Ending → Outcome
  | .done _ => .success
  | .failed .. | .barred .. => .aborted
  | .unconnected .. | .dangling _ => .stopped

def entry : Ending → Entry
  | .done n => entryOf n "Flow finished successfully" .success
  | .failed n f | .barred n f => entryOf n s!"Error: {f.message}" .error
  | .unconnected n port => entryOf n (stopMessage port) .warning
  | .dangling c => systemEntry (missingMessage c) .warning

end Ending

inductive Way where
  | onto (n : Node)
  | ends (e : Ending)

/-- The way from a node that has been left by a transition. -/
def wayOut (flow : Flow) (n : Node) (t : Transition) : Way :=
  if t.terminal then .ends (.done n)
  else match flow.next? n.id t.port with
    | none => .ends (.unconnected n t.port)
    | some c => match flow.node? c.target with
      | none => .ends (.dangling c)
      | some next => .onto next

def wayFrom (flow : Flow) (n : Node) : Except NodeFault Transition → Way
  | .ok t => wayOut flow n t
  | .error f => .ends (.failed n f)

/-- The transition ends the run at an end node only, and has a port at a decision only. -/
structure Transition.Fits (t : Transition) (n : Node) : Prop where
  terminal : t.terminal = (n.type == .finish)
  port : t.port.isSome = true → n.type = .decision

theorem visit_fits {n : Node} {m : Memory} {a : Http.Answer} {t : Transition} (h : (visit n m a).result = .ok t) :
    t.Fits n := by
  rw [visit_ok h]
  refine ⟨rfl, fun hp => ?_⟩
  by_cases ht : n.type = .decision
  · exact ht
  · rw [if_neg ht] at hp
    cases hp

/-- How a run may end that has left the node. -/
inductive LeftBy (flow : Flow) (n : Node) : Ending → Prop
  | done : n.type = .finish → LeftBy flow n (.done n)
  | unconnected {port : Option String} : n.type ≠ .finish → (port.isSome = true → n.type = .decision) →
      flow.next? n.id port = none → LeftBy flow n (.unconnected n port)
  | dangling {port : Option String} {c : Connection} :
    flow.next? n.id port = some c → flow.node? c.target = none → LeftBy flow n (.dangling c)

theorem wayOut_ends {flow : Flow} {n : Node} {t : Transition} {e : Ending} (h : wayOut flow n t = .ends e)
    (ht : t.Fits n) : LeftBy flow n e := by
  unfold wayOut at h
  by_cases hf : t.terminal = true
  · rw [if_pos hf] at h
    cases h
    exact .done (eq_of_beq (ht.terminal.symm.trans hf))
  · rw [if_neg hf] at h
    cases hc : flow.next? n.id t.port with
    | none =>
      rw [hc] at h
      cases h
      exact .unconnected (fun hn => hf (ht.terminal.trans (beq_iff_eq.mpr hn))) ht.port hc
    | some c =>
      rw [hc] at h
      dsimp only at h
      cases hn : flow.node? c.target with
      | none =>
        rw [hn] at h
        cases h
        exact .dangling hc hn
      | some next =>
        rw [hn] at h
        cases h

/-- What keeps a run that has made that many steps from another one. -/
def Settings.bar? (s : Settings) (h : Heap) (steps : Nat) : Option NodeFault :=
  match s.exhausted h steps with
  | .error t => some (.trouble t)
  | .ok true => some (s.budgetFault h)
  | .ok false => none

/-! ## Tours -/

/-- A visit with what it starts from. -/
structure Leg where
  node : Node
  before : Memory
  answer : Http.Answer

namespace Leg

def visit (l : Leg) : Visit := Run.visit l.node l.before l.answer

def after (l : Leg) : Memory := l.visit.memory

def way (flow : Flow) (l : Leg) : Way := wayFrom flow l.node l.visit.result

def executing (l : Leg) : Entry := entryOf l.node s!"Executing {l.node.type.text}" .info

def entries (l : Leg) : List Entry := l.executing :: told l.node l.visit.effects

/-- The answers that are left after the visit. -/
def unused (l : Leg) (as : List Http.Answer) : List Http.Answer :=
  match l.visit.call with
  | some _ => (Http.nextAnswer as).2
  | none => as

end Leg

/-- The visit leads on to a node. -/
def Leg.leads (flow : Flow) (l : Leg) : Bool :=
  match l.way flow with
  | .onto _ => true
  | .ends _ => false

/-- The memory that visits leave. -/
def afterAll (m : Memory) : List Leg → Memory
  | [] => m
  | l :: ls => afterAll l.after ls

/-- The visit of a node when the answers to come are these. -/
def legAt (n : Node) (m : Memory) (as : List Http.Answer) : Leg := ⟨n, m, (Http.nextAnswer as).1⟩

/-- The visits of a run that arrives at a node after that many steps, and how it ends. -/
inductive Tour (s : Settings) (flow : Flow) : Nat → Node → Memory → List Http.Answer → List Leg → Ending → Prop
  | barred {k : Nat} {n : Node} {m : Memory} {as : List Http.Answer} {f : NodeFault} :
    s.bar? m.heap k = some f → Tour s flow k n m as [] (.barred n f)
  | last {k : Nat} {n : Node} {m : Memory} {as : List Http.Answer} {e : Ending} :
    s.bar? m.heap k = none → (legAt n m as).way flow = .ends e → Tour s flow k n m as [legAt n m as] e
  | onward {k : Nat} {n next : Node} {m : Memory} {as : List Http.Answer} {ls : List Leg} {e : Ending} :
    s.bar? m.heap k = none → (legAt n m as).way flow = .onto next →
      Tour s flow (k + 1) next (legAt n m as).after ((legAt n m as).unused as) ls e →
        Tour s flow k n m as (legAt n m as :: ls) e

variable {s : Settings} {flow : Flow}

theorem Tour.unique {k : Nat} {n : Node} {m : Memory} {as : List Http.Answer} {ls ls' : List Leg} {e e' : Ending}
    (h : Tour s flow k n m as ls e) (h' : Tour s flow k n m as ls' e') : ls = ls' ∧ e = e' := by
  induction h generalizing ls' with
  | barred hb =>
    cases h' with
    | barred hb' => rw [hb] at hb'; cases hb'; exact ⟨rfl, rfl⟩
    | last hb' | onward hb' => rw [hb] at hb'; cases hb'
  | last hb hw =>
    cases h' with
    | barred hb' => rw [hb] at hb'; cases hb'
    | last _ hw' => rw [hw] at hw'; cases hw'; exact ⟨rfl, rfl⟩
    | onward _ hw' => rw [hw] at hw'; cases hw'
  | onward hb hw _ ih =>
    cases h' with
    | barred hb' => rw [hb] at hb'; cases hb'
    | last _ hw' => rw [hw] at hw'; cases hw'
    | onward _ hw' hr =>
      rw [hw] at hw'
      cases hw'
      obtain ⟨rfl, rfl⟩ := ih hr
      exact ⟨rfl, rfl⟩

/-- A tour goes on from a visit that makes no call. -/
theorem Tour.pass {k : Nat} {n next : Node} {m m' : Memory} {as : List Http.Answer}
    {es : List Effect} {t : Transition} {ls : List Leg} {e : Ending} (hb : s.bar? m.heap k = none)
    (hv : visit n m (Http.nextAnswer as).1 = ⟨es, m', .ok t, none⟩) (hw : wayOut flow n t = .onto next)
    (ht : Tour s flow (k + 1) next m' as ls e) : Tour s flow k n m as (legAt n m as :: ls) e := by
  have hvisit : (legAt n m as).visit = ⟨es, m', .ok t, none⟩ := hv
  have hway : (legAt n m as).way flow = .onto next := by
    rw [Leg.way, hvisit]
    exact hw
  refine .onward hb hway ?_
  rw [Leg.after, Leg.unused, hvisit]
  exact ht

/-! ## Budgets -/

/-- A whole number as budget is compared with the steps, whatever the heap holds. -/
theorem exhausted_int {budget : Int} (hs : s.maxSteps = .scalar (.int budget)) (h : Heap) (k : Nat) :
    s.exhausted h k = .ok (decide (budget ≤ k)) := by
  have horder : h.order .ge (.int k) (.scalar (.int budget)) = .ok ((compare (k : Int) budget).isGE) := rfl
  unfold Settings.exhausted
  rw [hs, horder]
  congr 1
  rw [Bool.eq_iff_iff, decide_eq_true_eq, Std.isGE_compare]

theorem bar?_none {budget : Int} (hs : s.maxSteps = .scalar (.int budget)) {h : Heap} {k : Nat} :
    s.bar? h k = none ↔ (k : Int) < budget := by
  unfold Settings.bar?
  rw [exhausted_int hs]
  by_cases hk : budget ≤ k
  · rw [decide_eq_true hk]
    constructor
    · intro h; cases h
    · intro h; omega
  · rw [decide_eq_false hk]
    exact ⟨fun _ => by omega, fun _ => rfl⟩

/-- The tour of a run that has made `k` steps makes as many more as its budget allows, at most. -/
theorem tour_exists {budget : Int} (hs : s.maxSteps = .scalar (.int budget)) (k : Nat) (n : Node) (m : Memory)
    (as : List Http.Answer) : ∃ ls e, Tour s flow k n m as ls e ∧ ls.length ≤ budget.toNat - k := by
  cases hb : s.bar? m.heap k with
  | some f => exact ⟨[], _, .barred hb, Nat.zero_le _⟩
  | none =>
    have hk := (bar?_none hs).mp hb
    cases hw : (legAt n m as).way flow with
    | ends e => exact ⟨_, e, .last hb hw, by simp only [List.length_singleton]; omega⟩
    | onto next =>
      obtain ⟨ls, e, ht, hl⟩ := tour_exists hs (k + 1) next (legAt n m as).after ((legAt n m as).unused as)
      exact ⟨_, e, .onward hb hw ht, by simp only [List.length_cons]; omega⟩
  termination_by budget.toNat - k

end StepFlow.Run
