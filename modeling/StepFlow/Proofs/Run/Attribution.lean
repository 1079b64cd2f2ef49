/-
  StepFlow.Proofs.Run.Attribution — which run and which node the records of a run belong to.

  A run binds its id while it has the lock, and the id of a node while its handler runs. So the
  scope of its walk, with what its blocks restore, is known from its stage alone (`Scoped`). A
  record that is written for a deed of the run is stamped with the id of the run, and with the
  node whose handler does the deed; outside of handlers, with the node that the caller has
  bound. A node that the notice names itself goes before both (`Stamped`).
  - In its pauses other runs may be asked for, from within (`Bid`). They are turned down, and
    the records of that belong to the run as well.
  - Handlers may fail, and callbacks do what they like: subscribe, publish, set, and fail.

  Proved, for every run in all surroundings:
  (1) `Turns.scoped`, `course_kept`: the scope fits the stage all along, and is that of the
      caller when the run has ended.
  (2) `course_did`: what the process log has gained after a turn is what the deeds up to then
      have noted (`Venture.deeds`).
  (3) `follow_attributed`: of runs that follow one another, each has records of its own.
-/

import StepFlow.Proofs.Run.Deeds

namespace StepFlow.Run

/-! ## Runs with requests in their pauses -/

/-- A request that is made in a pause of a run, from within it. -/
structure Bid where
  tag : String
  flow : Flow
  seed : Env

/-- A request with all that its run meets. -/
structure Venture where
  request : Request
  surroundings : Surroundings
  /-- The requests in its pauses, by the number of the turn. -/
  bids : Nat → List Bid

/-- The executor after a request from within. -/
def bid (scope : Log.Scope) (x : Executor) (b : Bid) : Executor := ((request scope b.tag b.flow b.seed).run x).2

/-- Where a run stands when these requests have been made in its pause, if it pauses. -/
def Standing.bidden (m : Standing) (bs : List Bid) : Standing :=
  match m.1.1 with
  | .going (.pausing ..) => (m.1, bs.foldl (bid m.1.2.scope) m.2)
  | _ => m

/-- Where the run stands after that many turns. -/
def Venture.course (v : Venture) (x : Executor) : Nat → Standing
  | 0 => v.request.begun x
  | k + 1 => ((v.course x k).bidden (v.bids k)).turned v.surroundings k

/-! ## Deeds -/

/-- What the log tells of these requests, if the run pauses. -/
def Standing.rejections (m : Standing) (bs : List Bid) : List (Place × Deed) :=
  match m.1.1 with
  | .going (.pausing ..) => byRun (bs.map fun b => .notes (rejectedNotice b.flow))
  | _ => []

/-- What the run does in the turn of that number. -/
def Standing.deeds (m : Standing) (s : Surroundings) (k : Nat) : List (Place × Deed) :=
  match m.1.1 with
  | .going stage => stage.deeds m.1.2 m.2 (s.event k stage)
  | .ended _ => []

/-- What a run has done after that many turns, with the requests that were turned down in its pauses. -/
def Venture.deeds (v : Venture) (x : Executor) : Nat → List (Place × Deed)
  | 0 => beginning v.request.flow
  | k + 1 =>
    let m := v.course x k
    v.deeds x k ++ (m.rejections (v.bids k) ++ (m.bidden (v.bids k)).deeds v.surroundings k)

/-! ## Scopes -/

def Request.runId (q : Request) : String := runIdOf q.flow.id q.tag

/-- The scope of a run where the handler of a node is executing, or none. -/
def Request.scopeAt (q : Request) (place : Place) : Log.Scope := ⟨q.runId, place.getD q.caller.node⟩

/-- The scope and the blocks of a run that has come that far. -/
def Scoped (q : Request) : Progress → Walk → Prop
  | .going (.calling n _), w =>
    w.scope = q.scopeAt (some n.id) ∧ w.blocks = [.node q.caller.node, .correlation q.caller.correlation]
  | .going _, w => w.scope = q.scopeAt none ∧ w.blocks = [.correlation q.caller.correlation]
  | .ended _, w => w.scope = q.caller

section

variable {q : Request} {w : Walk} {x y : Executor}

theorem left_scoped {e : Ended} (hs : w.scope = q.scopeAt none) (hb : w.blocks = [.correlation q.caller.correlation]) :
    Scoped q (.ended e) w.left := by
  show w.blocks.head?.elim w.scope w.scope.bind = q.caller
  rw [hb, hs]
  rfl

/-- Whichever way a run goes. -/
theorem Goes.scoped {r : Standing} {way : Way} (h : Goes w x r way) (hs : w.scope = q.scopeAt none)
    (hb : w.blocks = [.correlation q.caller.correlation]) : Scoped q r.1.1 r.1.2 := by
  cases h with
  | ends hc => exact left_scoped hs hb
  | raises hp hc => exact left_scoped hs hb
  | @onto pace next y hp hk => cases pace <;> exact ⟨hs, hb⟩

/-- The scope fits the next stage if it fits this one. -/
theorem Turns.scoped {stage : Stage} {e : Event} {r : Standing} (ht : Turns w x stage e r)
    (h : Scoped q (.going stage) w) : Scoped q r.1.1 r.1.2 := by
  cases ht with
  | barred hb hg => exact hg.scoped h.1 h.2
  | @calls n c y hb hr hk =>
    refine ⟨?_, ?_⟩
    · show w.scope.bind (.node n.id) = _
      rw [h.1]
      rfl
    · show w.scope.before (.node n.id) :: w.blocks = _
      rw [h.1, h.2]
      rfl
  | @visits n r hb hr hg =>
    refine hg.scoped ?_ h.2
    show (w.scope.bind (.node n.id)).bind (w.scope.before (.node n.id)) = _
    rw [Log.Scope.bind_before, h.1]
  | @resumes n c a r hg =>
    obtain ⟨hscope, hblocks⟩ := h
    refine hg.scoped ?_ ?_
    · show w.blocks.head?.elim w.scope w.scope.bind = _
      rw [hblocks, hscope]
      rfl
    · show w.blocks.tail = _
      rw [hblocks]
      rfl
  | wakes => exact h
  | disturbed hc => exact left_scoped h.1 h.2

/-- Its deeds are done in the scopes of their places. -/
theorem Scoped.within {stage : Stage} (h : Scoped q (.going stage) w) : Within q.scopeAt w stage := by
  cases stage with
  | arriving | pausing => exact h.1.symm
  | calling n c =>
    refine ⟨h.1.symm, ?_⟩
    show _ = w.blocks.head?.elim w.scope w.scope.bind
    rw [h.2, h.1]
    rfl

/-! ## All along -/

/-- The scope fits the stage, and the lock is held until the run has ended. -/
structure Standing.Kept (q : Request) (m : Standing) : Prop where
  scope : Scoped q m.1.1 m.1.2
  locked : m.2.locked = m.1.1.holds true

theorem bid_locked (scope : Log.Scope) (b : Bid) (h : x.locked = true) :
    (request scope b.tag b.flow b.seed).run x = (.inr (.finished .rejected), refused scope b.flow x) := by
  rw [request_run, if_pos h]

/-- Requests in a pause are noted, and change nothing but the log. -/
theorem bids_did {scope : Log.Scope} (hs : q.scopeAt none = scope) (bs : List Bid) (h : x.locked = true) :
    Did q.scopeAt x (byRun (bs.map fun b => .notes (rejectedNotice b.flow))) (bs.foldl (bid scope) x) ∧
      (bs.foldl (bid scope) x).locked = true := by
  induction bs generalizing x with
  | nil => exact ⟨.nothing rfl rfl rfl, h⟩
  | cons b bs ih =>
    have hbid : bid scope x b = refused scope b.flow x := congrArg Prod.snd (bid_locked scope b h)
    have hnoted : Did q.scopeAt x [(none, .notes (rejectedNotice b.flow))] (refused scope b.flow x) := by
      subst hs
      exact ⟨rfl, rfl, rfl⟩
    obtain ⟨hdid, hlocked⟩ := ih (x := refused scope b.flow x) h
    rw [List.foldl_cons, hbid]
    exact ⟨hnoted.trans hdid, hlocked⟩

theorem bidden_fst (m : Standing) (bs : List Bid) : (m.bidden bs).1 = m.1 := by
  unfold Standing.bidden
  split <;> rfl

theorem Standing.Kept.bidden {m : Standing} (h : m.Kept q) (bs : List Bid) :
    (m.bidden bs).Kept q ∧ Did q.scopeAt m.2 (m.rejections bs) (m.bidden bs).2 := by
  obtain ⟨⟨pr, w⟩, x⟩ := m
  obtain ⟨hscoped, hlocked⟩ := h
  cases pr with
  | ended e => exact ⟨⟨hscoped, hlocked⟩, .nothing rfl rfl rfl⟩
  | going stage =>
    cases stage with
    | arriving | calling => exact ⟨⟨hscoped, hlocked⟩, .nothing rfl rfl rfl⟩
    | pausing n seconds =>
      obtain ⟨hdid, hstill⟩ := bids_did hscoped.1.symm bs hlocked
      exact ⟨⟨hscoped, hstill⟩, hdid⟩

theorem Standing.Kept.turned {m : Standing} (h : m.Kept q) (s : Surroundings) (k : Nat) :
    (m.turned s k).Kept q ∧ Did q.scopeAt m.2 (m.deeds s k) (m.turned s k).2 := by
  obtain ⟨⟨pr, w⟩, x⟩ := m
  obtain ⟨hscoped, hlocked⟩ := h
  cases pr with
  | ended e => exact ⟨⟨hscoped, hlocked⟩, .nothing rfl rfl rfl⟩
  | going stage =>
    have hsettles := (turn_settles ⟨w, stage⟩ (s.event k stage) w x).locked
    rw [show x.locked = true from hlocked] at hsettles
    refine ⟨⟨(turn_cases s k stage w x).scoped hscoped, hsettles⟩, ?_⟩
    exact turn_does (fun _ => rfl) stage (s.event k stage) hscoped.within

theorem begun_kept (q : Request) (x : Executor) : Standing.Kept q (q.begun x) := by
  have hsettles := (begun_settles q x).locked
  refine ⟨?_, hsettles⟩
  rcases begun_cases q x with ⟨-, y, hy, -⟩ | ⟨n, y, -, hy, -⟩
  · rw [hy]
    exact left_scoped rfl rfl
  · rw [hy]
    exact ⟨rfl, rfl⟩

theorem begun_did (q : Request) (x : Executor) : Did q.scopeAt x (beginning q.flow) (q.begun x).2 := by
  have hdoes : Does q.scopeAt begin (.initial q.caller q.tag q.flow q.seed) { x with locked := true } _ :=
    begin_does rfl rfl
  exact ⟨hdoes.board, hdoes.logger, hdoes.program⟩

end

section

variable (v : Venture) (x : Executor)

theorem course_kept (k : Nat) : (v.course x k).Kept v.request := by
  induction k with
  | zero => exact begun_kept v.request x
  | succ k ih => exact ((ih.bidden (v.bids k)).1.turned v.surroundings k).1

/-- The log has gained what the deeds have noted. -/
theorem course_did (k : Nat) : Did v.request.scopeAt x (v.deeds x k) (v.course x k).2 := by
  induction k with
  | zero => exact begun_did v.request x
  | succ k ih =>
    obtain ⟨hkept, hbids⟩ := (course_kept v x k).bidden (v.bids k)
    exact ih.trans (hbids.trans (hkept.turned v.surroundings k).2)

end

/-! ## Records -/

/-- The record of a notice, with the id of a run, and the node that it names or else this one. -/
structure Stamped (runId node : String) (n : Log.Notice) (r : Log.Record) : Prop where
  correlation : r.correlation = runId
  named : ∀ j, Json.member? n.fields Log.nodeField = some j → Log.holds j = true → r.node = j
  unnamed : (∀ j, Json.member? n.fields Log.nodeField = some j → Log.holds j = false) → r.node = .str node
  message : r.message = n.message
  level : r.level = n.level
  traceback : r.traceback = n.traceback

theorem record_stamped (q : Request) (place : Place) (n : Log.Notice) :
    Stamped q.runId (place.getD q.caller.node) n (n.record (q.scopeAt place)) := by
  refine ⟨rfl, fun j hj hh => ?_, fun hnone => ?_, rfl, rfl, rfl⟩
  · show n.node _ = j
    rw [Log.Notice.node, hj]
    exact if_pos hh
  · show n.node _ = _
    unfold Log.Notice.node
    cases hj : Json.member? n.fields Log.nodeField with
    | none => rfl
    | some j =>
      dsimp only
      rw [hnone j hj]
      rfl

theorem stamped_own {runId node : String} {ns : List (Place × Log.Notice)} {rs : List Log.Record}
    (h : List.Forall₂ (fun n r => Stamped runId (n.1.getD node) n.2 r) ns rs) : ∀ r ∈ rs, r.correlation = runId := by
  induction h with
  | nil => exact nofun
  | cons hfirst _ ih => exact List.forall_mem_cons.mpr ⟨hfirst.correlation, ih⟩

/-- What is written of notices: those that the threshold lets through, each in its scope. -/
theorem written (scopeAt : Place → Log.Scope) (ns : List (Place × Log.Notice)) (l : Log.Logger) :
    (ns.foldl (fun l n => l.write (scopeAt n.1) n.2) l).records =
      l.records ++ (ns.filter fun n => l.accepts n.2.level).map fun n => n.2.record (scopeAt n.1) := by
  induction ns generalizing l with
  | nil => exact (List.append_nil _).symm
  | cons n ns ih =>
    rw [List.foldl_cons, ih, Log.Logger.write]
    by_cases ha : l.accepts n.2.level = true
    · rw [if_pos ha, List.filter_cons, if_pos ha, List.map_cons]
      exact (List.append_cons _ _ _).symm
    · rw [if_neg ha, List.filter_cons, if_neg ha]

/-- The notices of a run that its logger lets through, each with the node whose handler was executing. -/
def Venture.notices (v : Venture) (x : Executor) (k : Nat) : List (Place × Log.Notice) :=
  (noted x.rules x.board (v.deeds x k)).filter fun n => x.logger.accepts n.2.level

/-- What a run has written after each turn, and what it has bound. -/
structure Attributed (v : Venture) (x : Executor) : Prop where
  accepted : (request v.request.caller v.request.tag v.request.flow v.request.seed).run x =
    (ofProgress (v.course x 0).1, (v.course x 0).2)
  driven : ∀ k stage, (v.course x k).1.1 = .going stage →
    (Process.next ⟨(v.course x k).1.2, stage⟩ (v.surroundings.event k stage)).run
      ((v.course x k).bidden (v.bids k)).2 = (ofProgress (v.course x (k + 1)).1, (v.course x (k + 1)).2)
  /-- Requests in a pause are turned down. -/
  rejected : ∀ k n seconds, (v.course x k).1.1 = .going (.pausing n seconds) → ∀ bs (b : Bid),
    ((request (v.course x k).1.2.scope b.tag b.flow b.seed).run ((v.course x k).bidden bs).2).1 =
      .inr (.finished .rejected)
  /-- There is a record of each notice, and all are stamped with the run and the place. -/
  records : ∀ k, ∃ rs, (v.course x k).2.logger.records = x.logger.records ++ rs ∧
    List.Forall₂ (fun n r => Stamped v.request.runId (n.1.getD v.request.caller.node) n.2 r) (v.notices x k) rs
  /-- When the run has ended, both ids are what they were. -/
  restored : ∀ k e, (v.course x k).1.1 = .ended e → (v.course x k).1.2.scope = v.request.caller

theorem attributed {x : Executor} (hx : x.locked = false) (v : Venture) : Attributed v x := by
  refine ⟨course_zero v.request v.surroundings hx, fun k stage hk => ?_, fun k n seconds hk bs b => ?_, fun k => ?_,
    fun k e hk => ?_⟩
  · have hgoing : ((v.course x k).bidden (v.bids k)).1.1 = .going stage := by rw [bidden_fst, hk]
    rw [Venture.course, turned_going v.surroundings hgoing, bidden_fst]
    rfl
  · have hlocked := ((course_kept v x k).bidden bs).1.locked
    rw [bidden_fst, hk] at hlocked
    rw [bid_locked _ b hlocked]
  · have hdid := course_did v x k
    refine ⟨_, by rw [hdid.logger, written], ?_⟩
    rw [List.forall₂_map_right_iff]
    exact List.forall₂_same.mpr fun n _ => record_stamped v.request n.1 n.2
  · have hscoped := (course_kept v x k).scope
    rw [hk] at hscoped
    exact hscoped

/-! ## Runs that follow one another -/

/-- Each of the runs is asked for when the one before has ended. -/
inductive Follow : Executor → List Venture → Executor → Prop
  | nil (x : Executor) : Follow x [] x
  | cons {x y : Executor} {v : Venture} {vs : List Venture} {k : Nat} {e : Ended} :
    (v.course x k).1.1 = .ended e → Follow (v.course x k).2 vs y → Follow x (v :: vs) y

/-- The records are those of a whole run, and of no other one. -/
structure Wrote (v : Venture) (rs : List Log.Record) : Prop where
  whole : ∃ x k e, Attributed v x ∧ (v.course x k).1.1 = .ended e ∧
    (v.course x k).2.logger.records = x.logger.records ++ rs
  own : ∀ r ∈ rs, r.correlation = v.request.runId

theorem follow_attributed {x y : Executor} {vs : List Venture} (hx : x.locked = false) (h : Follow x vs y) :
    ∃ rss, List.Forall₂ Wrote vs rss ∧ y.logger.records = x.logger.records ++ rss.flatten := by
  induction h with
  | nil x => exact ⟨[], .nil, (List.append_nil _).symm⟩
  | @cons x y v vs k e hk hrest ih =>
    have hattributed := attributed hx v
    obtain ⟨rs, hrs, hall⟩ := hattributed.records k
    have hfree : (v.course x k).2.locked = false := by
      rw [(course_kept v x k).locked, hk]
      rfl
    obtain ⟨rss, hrss, hrecords⟩ := ih hfree
    refine ⟨rs :: rss, .cons ⟨⟨x, k, e, hattributed, hk, hrs⟩, fun r hr => ?_⟩ hrss, ?_⟩
    · exact stamped_own hall r hr
    · rw [hrecords, hrs, List.append_assoc]
      rfl

/-- Every record of a run carries its id, and the node whose handler was executing, unless it
    names a node itself; and of runs that follow one another, each has records of its own. -/
theorem records_belong_to_their_run {x : Executor} (hx : x.locked = false) :
    (∀ v, Attributed v x) ∧
      ∀ vs y, Follow x vs y →
        ∃ rss, List.Forall₂ Wrote vs rss ∧ y.logger.records = x.logger.records ++ rss.flatten :=
  ⟨attributed hx, fun _ _ => follow_attributed hx⟩

/-- The only call of the run fails, and so does a callback, in the handler and once more after
    it; in the pause before, another run is asked for. A second run follows. -/
theorem records_of_a_failing_run :
    let start : Node := ⟨"s", .start, .origin, ⟨"Start", none, none, none, none⟩⟩
    let call : Node := ⟨"a", .api, .origin, ⟨"Call", none, none, none, some ⟨"http://x", .get, none, none⟩⟩⟩
    let flow : Flow := ⟨"f", "Call", none, [start, call], [⟨"c", "s", "a", none⟩]⟩
    let empty : Executor := .create ⟨.scalar (.int 5), .scalar (.int 10)⟩ ⟨0, []⟩ .empty
    let x : Executor :=
      { empty with
        board := empty.board.subscribe .logs (.callback "broken")
        program := fun _ => [.failAt fun k => k == 4 || k == 5] }
    let s : Surroundings := ⟨fun _ => .failure (.network "ConnectionError" "refused"), fun _ => .ok ()⟩
    let v : Venture := ⟨⟨⟨"outer", "n"⟩, "t", flow, []⟩, s, fun _ => [⟨"u", flow, []⟩]⟩
    let shownNode : Json → String := fun j => match j with | .str id => id | _ => ""
    let second : Venture := ⟨⟨⟨"outer", "n"⟩, "w", flow, []⟩, s, fun _ => []⟩
    x.locked = false ∧ (∃ r, (v.course x 4).1.1 = .ended (.finished r) ∧ r.outcome = .aborted) ∧
      (v.course x 4).2.logger.records.map (fun r => (r.correlation, shownNode r.node, r.message)) =
        [("f:t", "n", "Starting flow run"), ("f:t", "s", "Executing node"),
          ("f:t", "n", "Run rejected, another run is in progress"), ("f:t", "a", "Executing node"),
          ("f:t", "a", "Channel subscriber failed"), ("f:t", "a", "Calling API"),
          ("f:t", "a", "Node failed"), ("f:t", "n", "Channel subscriber failed"),
          ("f:t", "n", "Run finished")] ∧
      Attributed v x ∧
      ∃ rss, List.Forall₂ Wrote [v, second] rss ∧
        (second.course (v.course x 4).2 4).2.logger.records = x.logger.records ++ rss.flatten := by
  intro start call flow empty x s v shownNode second
  have hx : x.locked = false := rfl
  have hfirst : ∃ r, (v.course x 4).1.1 = .ended (.finished r) ∧ r.outcome = .aborted := ⟨_, rfl, rfl⟩
  have hover : (second.course (v.course x 4).2 4).1.1.holds true = false := by decide +kernel
  refine ⟨hx, hfirst, by decide +kernel, (records_belong_to_their_run hx).1 v, ?_⟩
  obtain ⟨r, hended, -⟩ := hfirst
  cases hlast : (second.course (v.course x 4).2 4).1.1 with
  | going stage =>
    rw [hlast] at hover
    cases hover
  | ended e =>
    have hfollow : Follow x [v, second] (second.course (v.course x 4).2 4).2 :=
      Follow.cons hended (Follow.cons hlast (Follow.nil _))
    exact (records_belong_to_their_run hx).2 [v, second] _ hfollow

end StepFlow.Run
