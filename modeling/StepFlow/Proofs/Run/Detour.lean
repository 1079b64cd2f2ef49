/-
  StepFlow.Proofs.Run.Detour — nodes that do nothing can be left out of a flow.

  A detour leads a connection over one more node (`Flow.Detours`): the connection goes to that
  node in its place, and another one from there to where it went. If the node does nothing
  (`Node.Idle`), a tour of the flow with the detour is one of the flow without it, but for the
  visits of that node (`Skips`). One step of the shorter tour corresponds to one or two of the
  longer one, whose budget is at no point less spent.

  Proved, for every whole number as budget and number as pacing:
  (1) `detour_reroutes`: what is looked up in the one flow, by what is in the other.
  (2) `Reroutes.way`: a visit is left the same way in both, unless it goes over the detour.
  (3) `Tour.direct`: the simulation, by induction on the longer tour.
  (4) `Skips.entries`, `Skips.calls`, `Skips.memory`, `Skips.length`: what the visits left out
      have told and done.
  (5) `idle_detours_are_transparent`: so the runs have the same outcome, calls and variables, and
      all entries and steps of the one are those of the other but for the node's.
-/

import StepFlow.Proofs.Run.Course
import StepFlow.Proofs.Run.Driving

namespace StepFlow

/-- The node has nothing to do: no work of its own, a script that is blank, or no call. -/
inductive Node.Idle (n : Node) : Prop
  | task : n.type = .task → Node.Idle n
  | script : n.type = .script → Run.nonblank? n.data.script = none → Node.Idle n
  | api : n.type = .api → n.data.apiConfig = none → Node.Idle n

/-- The second flow is the first one with a detour over the node, which is new to it. -/
structure Flow.Detours (f g : Flow) (t : Node) : Prop where
  id : g.id = f.id
  nodes : ∃ ns ms, f.nodes = ns ++ ms ∧ g.nodes = ns ++ t :: ms
  /-- One connection to a node leads to the new one instead, in its place, and another one from
      there to where it led. -/
  connections : ∃ cs c ds ks d ls, f.connections = cs ++ c :: ds ∧ (∃ n ∈ f.nodes, n.id = c.target) ∧
    cs ++ { c with target := t.id } :: ds = ks ++ ls ∧ g.connections = ks ++ d :: ls ∧
    d.source = t.id ∧ d.target = c.target
  /-- The id is in use nowhere: not by a node, not by a connection, not by entries of the system. -/
  newNode : ∀ n ∈ f.nodes, n.id ≠ t.id
  unlinked : ∀ c ∈ f.connections, c.source ≠ t.id ∧ c.target ≠ t.id
  unreserved : t.id ≠ Run.systemId
  idle : t.Idle

namespace Run

open Script (Memory)

/-! ## Ways through both flows -/

/-- What is looked up in a flow with a detour, where the first flow leads on to the next node. -/
structure Reroutes (f g : Flow) (t next : Node) : Prop where
  start : g.startNode? = f.startNode?
  nodes : ∀ id, id ≠ t.id → g.node? id = f.node? id
  node : g.node? t.id = some t
  /-- The only way out of the new node. -/
  onward : ∃ d, g.next? t.id none = some d ∧ g.node? d.target = some next
  turnoff : ∀ id port, id ≠ t.id → g.next? id port = f.next? id port ∨
    ∃ c, f.next? id port = some c ∧ f.node? c.target = some next ∧ g.next? id port = some { c with target := t.id }
  apart : next.id ≠ t.id
  other : ∀ n ∈ f.nodes, n.id ≠ t.id
  elsewhere : ∀ id port c, f.next? id port = some c → c.target ≠ t.id

theorem find?_past {α : Type} {p : α → Bool} {a : α} (h : p a = false) (xs ys : List α) :
    (xs ++ a :: ys).find? p = (xs ++ ys).find? p := by
  rw [List.find?_append, List.find?_append, List.find?_cons_of_neg (by rw [h]; decide)]

theorem find?_here {α : Type} {p : α → Bool} {a : α} {xs : List α} (hxs : ∀ x ∈ xs, p x = false) (h : p a = true)
    (ys : List α) : (xs ++ a :: ys).find? p = some a := by
  have hbefore : xs.find? p = none := List.find?_eq_none.mpr fun x hx => by rw [hxs x hx]; decide
  rw [List.find?_append, hbefore, List.find?_cons_of_pos h]
  rfl

theorem idle_start {t : Node} (h : t.Idle) : (t.type == .start) = false := by
  cases h with
  | task ht | script ht | api ht => rw [ht]; rfl

section

variable {f g : Flow} {t : Node}

/-- The new node is found under its own id only. -/
theorem detour_nodes (h : f.Detours g t) : g.startNode? = f.startNode? ∧
    (∀ id, id ≠ t.id → g.node? id = f.node? id) ∧ g.node? t.id = some t := by
  obtain ⟨ns, ms, hf, hg⟩ := h.nodes
  unfold Flow.startNode? Flow.node?
  rw [hf, hg]
  refine ⟨find?_past (p := fun m : Node => m.type == .start) (idle_start h.idle) ns ms, fun id hid => ?_, ?_⟩
  · exact find?_past (p := fun m : Node => m.id == id) (beq_eq_false_iff_ne.mpr (Ne.symm hid)) ns ms
  · refine find?_here (p := fun m : Node => m.id == t.id) (fun m hm => ?_) (beq_self_eq_true t.id) ms
    exact beq_eq_false_iff_ne.mpr (h.newNode m (hf ▸ List.mem_append_left _ hm))

theorem detour_reroutes (h : f.Detours g t) : ∃ next, Reroutes f g t next := by
  obtain ⟨hstart, hnodes, hnode⟩ := detour_nodes h
  obtain ⟨cs, c, ds, ks, d, ls, hf, ⟨n, hn, hc⟩, hsplit, hg, hsource, htarget⟩ := h.connections
  have hsome : (f.node? c.target).isSome := List.find?_isSome.mpr ⟨n, hn, beq_iff_eq.mpr hc⟩
  obtain ⟨next, hnext⟩ := Option.isSome_iff_exists.mp hsome
  have hmem : c ∈ f.connections := hf ▸ List.mem_append_right _ List.mem_cons_self
  have hctarget := (h.unlinked c hmem).2
  have hnextId := h.newNode next (List.mem_of_find?_eq_some hnext)
  refine ⟨next, hstart, hnodes, hnode, ⟨d, ?_, ?_⟩, fun id port hid => ?_, hnextId, h.newNode, fun id port e he => ?_⟩
  · have hsources : ∀ e ∈ cs ++ { c with target := t.id } :: ds, e.source ≠ t.id := by
      intro e he
      rcases List.mem_append.mp he with he | he
      · exact (h.unlinked e (hf ▸ List.mem_append_left _ he)).1
      · rcases List.mem_cons.mp he with rfl | he
        · exact (h.unlinked c hmem).1
        · exact (h.unlinked e (hf ▸ List.mem_append_right _ (List.mem_cons_of_mem _ he))).1
    rw [Flow.next?, hg]
    refine find?_here (fun e he => ?_) (by simp [hsource]) ls
    rw [beq_eq_false_iff_ne.mpr (hsources e (hsplit ▸ List.mem_append_left _ he)), Bool.false_and]
  · rw [htarget, hnodes _ hctarget, hnext]
  · let fits (e : Connection) : Bool := e.source == id && (port.isNone || e.sourcePort == port)
    have hd : fits d = false := by
      show (d.source == id && _) = false
      rw [hsource, beq_eq_false_iff_ne.mpr (Ne.symm hid), Bool.false_and]
    have hg' : g.next? id port = (cs ++ { c with target := t.id } :: ds).find? fits := by
      rw [Flow.next?, hg, hsplit]
      exact find?_past hd ks ls
    have hf' : f.next? id port = (cs ++ c :: ds).find? fits := by rw [Flow.next?, hf]
    have hfits : fits { c with target := t.id } = fits c := rfl
    rw [hg', hf', List.find?_append, List.find?_append, List.find?_cons, List.find?_cons, hfits]
    cases cs.find? fits with
    | some e => exact .inl rfl
    | none =>
      cases fits c with
      | true => exact .inr ⟨c, rfl, hnext, rfl⟩
      | false => exact .inl rfl
  · exact (h.unlinked e (List.mem_of_find?_eq_some he)).2

/-! ## Visits -/

theorem idle_visit (h : t.Idle) (m : Memory) (a : Http.Answer) : visit t m a = ⟨[], m, .ok .follow, none⟩ := by
  cases h with
  | task ht => exact visit_done a (by simp only [Handler.run, ht])
  | script ht hs => exact visit_done a (by simp only [Handler.run, ht, Handler.script, hs])
  | api ht hc => exact visit_done a (by simp only [Handler.run, ht, Handler.api, hc])

variable {next : Node}

/-- A visit of the new node leads on to the next one. -/
theorem Reroutes.passes (h : Reroutes f g t next) (hi : t.Idle) (m : Memory) (a : Http.Answer) :
    Leg.way g ⟨t, m, a⟩ = .onto next := by
  obtain ⟨d, hd, hnext⟩ := h.onward
  have hvisit : Leg.visit ⟨t, m, a⟩ = ⟨[], m, .ok .follow, none⟩ := idle_visit hi m a
  rw [Leg.way, hvisit]
  have hfollow : g.next? t.id Transition.follow.port = some d := hd
  simp only [wayFrom, wayOut, hfollow, hnext]
  rfl

/-- A visit of another node is left the same way, on to another one or for good, unless it goes
    over the detour. -/
theorem Reroutes.way (h : Reroutes f g t next) {l : Leg} (hl : l.node.id ≠ t.id) :
    (l.way g = l.way f ∧ ∀ n, l.way f = .onto n → n.id ≠ t.id) ∨ (l.way g = .onto t ∧ l.way f = .onto next) := by
  unfold Leg.way
  cases l.visit.result with
  | error fault => exact .inl ⟨rfl, fun n hn => by cases hn⟩
  | ok tr =>
    have hother : ∀ n, wayOut f l.node tr = .onto n → n.id ≠ t.id := fun n hn => by
      obtain ⟨c, -, hnode⟩ := wayOut_onto hn
      exact h.other n (List.mem_of_find?_eq_some hnode)
    simp only [wayFrom]
    rcases h.turnoff l.node.id tr.port hl with hsame | ⟨c, hf, hnext, hg⟩
    · refine .inl ⟨?_, hother⟩
      unfold wayOut
      rw [hsame]
      cases hc : f.next? l.node.id tr.port with
      | none => rfl
      | some c =>
        dsimp only
        rw [h.nodes _ (h.elsewhere _ _ c hc)]
    · unfold wayOut at hother ⊢
      by_cases ht : tr.terminal = true
      · refine .inl ⟨by rw [if_pos ht, if_pos ht], hother⟩
      · refine .inr ⟨?_, ?_⟩
        · rw [if_neg ht, hg]
          simp only [h.node]
        · rw [if_neg ht, hf]
          simp only [hnext]

/-! ## Tours -/

/-- The first visits are the second ones without those of the node. Both start from the memory,
    which a visit of the node leaves as it is. -/
inductive Skips (t : Node) : Memory → List Leg → List Leg → Prop
  | nil (m : Memory) : Skips t m [] []
  | both {l : Leg} {ls ls' : List Leg} :
    l.node.id ≠ t.id → Skips t l.after ls ls' → Skips t l.before (l :: ls) (l :: ls')
  | past {l : Leg} {ls ls' : List Leg} : l.node = t → Skips t l.before ls ls' → Skips t l.before ls (l :: ls')

/-- Where the one run is when the other one, over the detour, has arrived at a node. -/
inductive Alongside (t next : Node) : Node → Node → Prop
  | same {n : Node} : n.id ≠ t.id → Alongside t next n n
  | behind : Alongside t next t next

theorem bar?_earlier {s : Settings} {budget : Int} (hs : s.maxSteps = .scalar (.int budget)) {h : Heap} {k k' : Nat}
    (hb : s.bar? h k' = none) (hk : k ≤ k') : s.bar? h k = none := by
  have hbudget := (bar?_none hs).mp hb
  exact (bar?_none hs).mpr (by omega)

/-- A tour of the flow with the detour is one of the flow without it, unless it is barred. The
    second one has made no more steps when it arrives at the node alongside. -/
theorem Tour.direct {s : Settings} {budget : Int} (hs : s.maxSteps = .scalar (.int budget))
    (h : Reroutes f g t next) (hi : t.Idle) {k k' : Nat} {n n' : Node} {m : Memory} {as : List Http.Answer}
    {ls' : List Leg} {e : Ending} (ht : Tour s g k' n' m as ls' e) (hn : Alongside t next n' n) (hk : k ≤ k')
    (he : ∀ n fault, e ≠ .barred n fault) : ∃ ls, Tour s f k n m as ls e ∧ Skips t m ls ls' := by
  induction ht generalizing k n with
  | barred => exact absurd rfl (he _ _)
  | @last k' n' m as e hb hway =>
    cases hn with
    | behind =>
      have hpasses := h.passes hi m (Http.nextAnswer as).1
      exact absurd (hway.symm.trans hpasses) (by simp)
    | same hid =>
      rcases h.way (l := legAt n' m as) hid with ⟨hsame, -⟩ | ⟨hdetour, -⟩
      · exact ⟨_, .last (bar?_earlier hs hb hk) (hsame.symm.trans hway), .both (l := legAt n' m as) hid (.nil _)⟩
      · exact absurd (hway.symm.trans hdetour) (by simp)
  | @onward k' n' next' m as ls' e hb hway _ ih =>
    cases hn with
    | behind =>
      have hpasses := h.passes hi m (Http.nextAnswer as).1
      cases hway.symm.trans hpasses
      have hvisit : (legAt t m as).visit = ⟨[], m, .ok .follow, none⟩ := idle_visit hi m _
      have hafter : (legAt t m as).after = m := by rw [Leg.after, hvisit]
      have hunused : (legAt t m as).unused as = as := by rw [Leg.unused, hvisit]
      obtain ⟨ls, htour, hskips⟩ := ih (.same h.apart) (Nat.le_succ_of_le hk) he
      rw [hafter, hunused] at htour
      rw [hafter] at hskips
      exact ⟨ls, htour, .past (l := legAt t m as) rfl hskips⟩
    | same hid =>
      rcases h.way (l := legAt n' m as) hid with ⟨hsame, hother⟩ | ⟨hdetour, hdirect⟩
      · have hway' := hsame.symm.trans hway
        obtain ⟨ls, htour, hskips⟩ := ih (.same (hother _ hway')) (Nat.succ_le_succ hk) he
        exact ⟨_, .onward (bar?_earlier hs hb hk) hway' htour, .both hid hskips⟩
      · cases hway.symm.trans hdetour
        obtain ⟨ls, htour, hskips⟩ := ih .behind (Nat.succ_le_succ hk) he
        exact ⟨_, .onward (bar?_earlier hs hb hk) hdirect htour, .both hid hskips⟩

/-! ## What the visits have told and done -/

theorem told_nodeId (n : Node) (es : List Effect) : ∀ e ∈ told n es, e.nodeId = n.id := by
  induction es with
  | nil => intro e he; cases he
  | cons effect es ih =>
    cases effect with
    | emit =>
      intro e he
      rcases List.mem_cons.mp he with rfl | he
      · rfl
      · exact ih e he
    | log => exact ih

theorem entries_nodeId (l : Leg) : ∀ e ∈ l.entries, e.nodeId = l.node.id := by
  intro e he
  rcases List.mem_cons.mp he with rfl | he
  · rfl
  · exact told_nodeId l.node _ e he

/-- The entries that are not the node's. -/
def entriesBut (t : Node) (es : List Entry) : List Entry := es.filter (·.nodeId != t.id)

theorem entriesBut_append (es fs : List Entry) : entriesBut t (es ++ fs) = entriesBut t es ++ entriesBut t fs :=
  List.filter_append es fs

theorem entriesBut_others {es : List Entry} (h : ∀ e ∈ es, e.nodeId ≠ t.id) : entriesBut t es = es :=
  List.filter_eq_self.mpr fun e he => bne_iff_ne.mpr (h e he)

theorem entriesBut_other {e : Entry} (h : e.nodeId ≠ t.id) : entriesBut t [e] = [e] :=
  entriesBut_others fun e' he => by rwa [List.mem_singleton.mp he]

theorem entriesBut_own {es : List Entry} (h : ∀ e ∈ es, e.nodeId = t.id) : entriesBut t es = [] :=
  List.filter_eq_nil_iff.mpr fun e he => by rw [h e he, bne_self_eq_false]; decide

section

variable {m : Memory} {ls ls' : List Leg}

theorem Skips.entries (h : Skips t m ls ls') :
    ls.flatMap Leg.entries = entriesBut t (ls'.flatMap Leg.entries) := by
  induction h with
  | nil => rfl
  | @both l _ _ hid _ ih =>
    have hothers : ∀ e ∈ l.entries, e.nodeId ≠ t.id := fun e he => by rwa [entries_nodeId l e he]
    rw [List.flatMap_cons, List.flatMap_cons, entriesBut_append, entriesBut_others hothers, ih]
  | @past l _ _ hl _ ih =>
    have hown : ∀ e ∈ l.entries, e.nodeId = t.id := fun e he => by rw [entries_nodeId l e he, hl]
    rw [List.flatMap_cons, entriesBut_append, entriesBut_own hown, ih, List.nil_append]

theorem Skips.length (h : Skips t m ls ls') : ls'.length = ls.length + ls'.countP (·.node.id == t.id) := by
  induction h with
  | nil => rfl
  | both hid _ ih =>
    rw [List.length_cons, List.length_cons, List.countP_cons_of_neg (by simpa using hid), ih]
    omega
  | past hl _ ih =>
    rw [List.length_cons, List.countP_cons_of_pos (by simp [hl]), ih]
    omega

theorem Leg.idle (hi : t.Idle) {l : Leg} (hl : l.node = t) : l.visit = ⟨[], l.before, .ok .follow, none⟩ := by
  rw [Leg.visit, hl]
  exact idle_visit hi l.before l.answer

theorem Skips.calls (h : Skips t m ls ls') (hi : t.Idle) :
    ls.filterMap (·.visit.call) = ls'.filterMap (·.visit.call) := by
  have hcons : ∀ (l : Leg) (ls : List Leg),
      (l :: ls).filterMap (·.visit.call) = l.visit.call.toList ++ ls.filterMap (·.visit.call) :=
    fun l ls => by rw [← List.singleton_append, List.filterMap_append, filterMap_call]
  induction h with
  | nil => rfl
  | both _ _ ih => rw [hcons, hcons, ih]
  | past hl _ ih =>
    rw [hcons, Leg.idle hi hl, ih]
    rfl

theorem Skips.memory (h : Skips t m ls ls') (hi : t.Idle) : afterAll m ls = afterAll m ls' := by
  induction h with
  | nil => rfl
  | both _ _ ih => exact ih
  | @past l ls ls' hl _ ih =>
    have hafter : l.after = l.before := by rw [Leg.after, Leg.idle hi hl]
    rw [ih, afterAll, hafter]

end

/-- The last entry of a run is that of the node that it has left, or of the system. -/
theorem way_ends {l : Leg} {e : Ending} (h : l.way f = .ends e) :
    e.entry.nodeId = l.node.id ∨ e.entry.nodeId = systemId := by
  unfold Leg.way at h
  cases hr : l.visit.result with
  | error fault =>
    rw [hr] at h
    cases h
    exact .inl rfl
  | ok tr =>
    rw [hr] at h
    have hleft := wayOut_ends h (visit_fits hr)
    cases hleft with
    | done | unconnected => exact .inl rfl
    | dangling => exact .inr rfl

/-- The node has no part in how a tour ends that is not over the detour. -/
theorem Tour.ending_apart {s : Settings} (h : Reroutes f g t next) (hsystem : t.id ≠ systemId) {k : Nat} {n : Node}
    {m : Memory} {as : List Http.Answer} {ls : List Leg} {e : Ending} (ht : Tour s f k n m as ls e)
    (hn : n.id ≠ t.id) : e.entry.nodeId ≠ t.id := by
  induction ht with
  | barred => exact hn
  | last _ hway =>
    rcases way_ends hway with hnode | hnone
    · rw [hnode]
      exact hn
    · rw [hnone]
      exact hsystem.symm
  | @onward k n next' m as _ _ _ hway _ ih =>
    refine ih ?_
    rcases h.way (l := legAt n m as) hn with ⟨-, hother⟩ | ⟨-, hdirect⟩
    · exact hother _ hway
    · cases hway.symm.trans hdirect
      exact h.apart

end

/-! ## Runs -/

/-- The visits of a run, and how it ends if there is a node where it begins. -/
inductive Walked (s : Settings) (flow : Flow) (m : Memory) (as : List Http.Answer) : List Leg → Option Ending → Prop
  | stranded : flow.startNode? = none → Walked s flow m as [] none
  | toured {n : Node} {ls : List Leg} {e : Ending} :
    flow.startNode? = some n → Tour s flow 0 n m as ls e → Walked s flow m as ls (some e)

/-- A run with its result and what it leaves, its visits and its ending. -/
structure Passage where
  result : Result
  world : World
  legs : List Leg
  ending : Option Ending

/-- The budget has not ended the run. -/
def Passage.Unbarred (j : Passage) : Prop := ∀ n fault, j.ending ≠ some (.barred n fault)

/-- Whose run it is. -/
structure Passage.Of (j : Passage) (q : Request) (x : Executor) (answers : List Http.Answer)
    (attempt : Option Attempt) : Prop where
  run : (runToEnd attempt q.caller q.tag q.flow q.seed).run (World.start x answers) =
    (some (.finished j.result), j.world)
  walked : Walked x.settings q.flow (contextOf q.seed x.heap) answers j.legs j.ending

/-- The first run is the second one without the visits of the node. -/
structure Passage.Bypasses (j j' : Passage) (t : Node) (m : Memory) : Prop where
  ending : j.ending = j'.ending
  runId : j.result.runId = j'.result.runId
  outcome : j.result.outcome = j'.result.outcome
  entries : j.result.entries = entriesBut t j'.result.entries
  calls : j.world.calls = j'.world.calls
  context : afterAll m j.legs = afterAll m j'.legs
  heap : j.world.executor.heap = j'.world.executor.heap
  steps : j'.result.steps = j.result.steps + j'.legs.countP (·.node.id == t.id)

/-- The result of a run by its visits and its ending. -/
def Request.resultOf (q : Request) (ls : List Leg) : Option Ending → Result
  | none => ⟨runIdOf q.flow.id q.tag, .aborted, 0, [strandedEntry]⟩
  | some e => Run.resultOf q.flow q.tag ls e

/-- The containers that a run leaves. It makes its context when it begins at a node. -/
def Request.heapOf (q : Request) (x : Executor) (ls : List Leg) : Option Ending → Heap
  | none => x.heap
  | some _ => (afterAll (contextOf q.seed x.heap) ls).heap

section

variable {q : Request} {x : Executor} {budget : Int} {answers : List Http.Answer} {ls : List Leg} {e : Option Ending}

theorem walked_exists (hs : x.settings.maxSteps = .scalar (.int budget)) (q : Request) (answers : List Http.Answer) :
    ∃ ls e, Walked x.settings q.flow (contextOf q.seed x.heap) answers ls e := by
  cases hstart : q.flow.startNode? with
  | none => exact ⟨[], none, .stranded hstart⟩
  | some n =>
    obtain ⟨ls, e, htour, -⟩ :
        ∃ ls e, Tour x.settings q.flow 0 n (contextOf q.seed x.heap) answers ls e ∧ ls.length ≤ budget.toNat - 0 :=
      tour_exists hs 0 n (contextOf q.seed x.heap) answers
    exact ⟨ls, some e, .toured hstart htour⟩

/-- A run makes its visits, and that is all. -/
theorem Walked.runs (hw : Walked x.settings q.flow (contextOf q.seed x.heap) answers ls e) (hx : x.locked = false)
    (hs : x.settings.maxSteps = .scalar (.int budget)) {pace : Option Float} (hp : x.settings.Paced pace)
    (attempt : Option Attempt) :
    ∃ v, (runToEnd attempt q.caller q.tag q.flow q.seed).run (World.start x answers) =
        (some (.finished (q.resultOf ls e)), v) ∧
      v.calls = ls.filterMap (·.visit.call) ∧ v.executor.heap = q.heapOf x ls e := by
  cases hw with
  | stranded hstart =>
    obtain ⟨y, hrun, hk⟩ :=
      run_stranded (u := World.start x answers) attempt q.caller q.tag q.seed hx hstart
    exact ⟨_, hrun, rfl, hk.heap⟩
  | @toured n ls e hstart htour =>
    have hlen : ls.length ≤ budget.toNat - 0 := by
      obtain ⟨ls', e', htour', hlen⟩ := tour_exists hs 0 n (contextOf q.seed x.heap) answers
      rwa [(htour.unique htour').1]
    obtain ⟨v, hrun, htoured, -⟩ :=
      run_tour (u := World.start x answers) attempt q.caller q.tag q.seed hx hstart hs hp htour hlen
    exact ⟨v, hrun, htoured.calls, htoured.heap⟩

end

section

variable {f g : Flow} {t next : Node}

/-- The run of the flow without the detour is the other one but for the visits of the node. -/
theorem Walked.direct {s : Settings} {budget : Int} (hs : s.maxSteps = .scalar (.int budget))
    (h : Reroutes f g t next) (hi : t.Idle) {m : Memory} {as : List Http.Answer} {ls' : List Leg} {e : Option Ending}
    (hw : Walked s g m as ls' e) (he : ∀ n fault, e ≠ some (.barred n fault)) :
    ∃ ls, Walked s f m as ls e ∧ Skips t m ls ls' := by
  cases hw with
  | stranded hstart => exact ⟨[], .stranded (h.start.symm.trans hstart), .nil m⟩
  | @toured n _ e hstart htour =>
    have hstart' := h.start.symm.trans hstart
    have hunbarred : ∀ n fault, e ≠ .barred n fault := fun n fault hb => he n fault (congrArg some hb)
    obtain ⟨ls, htour', hskips⟩ :=
      htour.direct hs h hi (.same (h.other n (List.mem_of_find?_eq_some hstart'))) (Nat.le_refl 0) hunbarred
    exact ⟨ls, .toured hstart' htour', hskips⟩

/-- What a run tells is what it tells with the detour, but for the entries of the node. -/
theorem Skips.told {m : Memory} {ls ls' : List Leg} (h : Skips t m ls ls') (hsystem : t.id ≠ systemId) {e : Ending}
    (he : e.entry.nodeId ≠ t.id) (tag : String) :
    (resultOf f tag ls e).entries = entriesBut t (resultOf g tag ls' e).entries := by
  show startingEntry :: (ls.flatMap Leg.entries ++ [e.entry]) =
    entriesBut t ([startingEntry] ++ (ls'.flatMap Leg.entries ++ [e.entry]))
  rw [entriesBut_append, entriesBut_append, entriesBut_other (e := startingEntry) hsystem.symm, entriesBut_other he,
    h.entries]
  rfl

end

section

variable {q : Request} {g : Flow} {t : Node} {x : Executor}

theorem Walked.bypasses (hd : q.flow.Detours g t) {answers : List Http.Answer} {ls ls' : List Leg} {e : Option Ending}
    (hw : Walked x.settings q.flow (contextOf q.seed x.heap) answers ls e)
    (hw' : Walked x.settings g (contextOf q.seed x.heap) answers ls' e)
    (hskips : Skips t (contextOf q.seed x.heap) ls ls') {v v' : World}
    (hcalls : v.calls = ls.filterMap (·.visit.call)) (hcalls' : v'.calls = ls'.filterMap (·.visit.call))
    (hheap : v.executor.heap = q.heapOf x ls e) (hheap' : v'.executor.heap = q.heapOf x ls' e) :
    Passage.Bypasses ⟨q.resultOf ls e, v, ls, e⟩ ⟨{ q with flow := g }.resultOf ls' e, v', ls', e⟩ t
      (contextOf q.seed x.heap) := by
  obtain ⟨next, hr⟩ := detour_reroutes hd
  have hcontext := hskips.memory hd.idle
  have hsame : v.calls = v'.calls := by rw [hcalls, hcalls', hskips.calls hd.idle]
  have hid : runIdOf q.flow.id q.tag = runIdOf g.id q.tag := by rw [hd.id]
  cases hw with
  | stranded =>
    cases hw'
    exact ⟨rfl, hid, rfl, (entriesBut_other hd.unreserved.symm).symm, hsame, hcontext, hheap.trans hheap'.symm, rfl⟩
  | @toured n _ e hstart htour =>
    have hn := hr.other n (List.mem_of_find?_eq_some hstart)
    have hheaps : v.executor.heap = v'.executor.heap := by
      rw [hheap, hheap', Request.heapOf, Request.heapOf, hcontext]
    exact ⟨rfl, hid, rfl, hskips.told hd.unreserved (htour.ending_apart hr hd.unreserved hn) q.tag, hsame, hcontext,
      hheaps, hskips.length⟩

/-- A node that does nothing, on the way of a connection, adds its own visits to a run and nothing
    else, unless the budget ends the run before. -/
theorem idle_detours_are_transparent (hd : q.flow.Detours g t) {budget : Int} {p : Scalar} {seconds : Float}
    (hx : x.locked = false) (hs : x.settings.maxSteps = .scalar (.int budget)) (hp : x.settings.pacing = .scalar p)
    (hn : p.isNumber = true) (hsec : Settings.positive p = true → Settings.seconds p = .ok seconds)
    (answers : List Http.Answer) (attempt : Option Attempt) :
    ∃ j j' : Passage, j.Of q x answers attempt ∧ j'.Of { q with flow := g } x answers attempt ∧
      (j'.Unbarred → j.Bypasses j' t (contextOf q.seed x.heap)) := by
  have hpace := paced_number hp hn hsec
  obtain ⟨ls', e', hw'⟩ := walked_exists hs { q with flow := g } answers
  obtain ⟨v', hrun', hcalls', hheap'⟩ := hw'.runs hx hs hpace attempt
  by_cases he : ∀ n fault, e' ≠ some (.barred n fault)
  · obtain ⟨next, hr⟩ := detour_reroutes hd
    obtain ⟨ls, hw, hskips⟩ := hw'.direct hs hr hd.idle he
    obtain ⟨v, hrun, hcalls, hheap⟩ := hw.runs hx hs hpace attempt
    exact ⟨⟨_, v, ls, e'⟩, ⟨_, v', ls', e'⟩, ⟨hrun, hw⟩, ⟨hrun', hw'⟩, fun _ =>
      hw.bypasses hd hw' hskips hcalls hcalls' hheap hheap'⟩
  · obtain ⟨ls, e, hw⟩ := walked_exists hs q answers
    obtain ⟨v, hrun, -⟩ := hw.runs hx hs hpace attempt
    exact ⟨⟨_, v, ls, e⟩, ⟨_, v', ls', e'⟩, ⟨hrun, hw⟩, ⟨hrun', hw'⟩, fun hu => absurd hu he⟩

/-- The way from a start node to an end node leads over a task. -/
theorem detour_over_a_task :
    let first : Node := ⟨"s", .start, .origin, ⟨"Start", none, none, none, none⟩⟩
    let last : Node := ⟨"e", .finish, .origin, ⟨"End", none, none, none, none⟩⟩
    let task : Node := ⟨"t", .task, .origin, ⟨"Task", none, none, none, none⟩⟩
    let q : Request := ⟨.none, "t", ⟨"f", "Two", none, [first, last], [⟨"c", "s", "e", none⟩]⟩, []⟩
    let g : Flow := ⟨"f", "Three", none, [first, last, task], [⟨"c", "s", "t", none⟩, ⟨"d", "t", "e", none⟩]⟩
    let x : Executor := .create ⟨.scalar (.float 800), .scalar (.int 10)⟩ ⟨0, []⟩ .empty
    ∃ j j' : Passage, j.Of q x [] none ∧ j'.Of { q with flow := g } x [] none ∧ j'.Unbarred ∧
      j.Bypasses j' task (contextOf q.seed x.heap) := by
  intro first last task q g x
  have hd : q.flow.Detours g task := {
    id := rfl
    nodes := ⟨[first, last], [], rfl, rfl⟩
    connections := ⟨[], ⟨"c", "s", "e", none⟩, [], [⟨"c", "s", "t", none⟩], ⟨"d", "t", "e", none⟩, [], rfl,
      ⟨last, by simp [q], rfl⟩, rfl, rfl, rfl, rfl⟩
    newNode := by simp [q, first, last, task]
    unlinked := by simp [q, task]
    unreserved := by decide
    idle := .task rfl }
  obtain ⟨j, j', hj, hj', hbypasses⟩ :=
    idle_detours_are_transparent hd (x := x) rfl rfl rfl rfl (fun _ => rfl) [] none
  have htour : Tour x.settings g 0 first (contextOf q.seed x.heap) [] _ (.done last) :=
    .pass ((bar?_none rfl).mpr (by decide)) rfl rfl
      (.pass ((bar?_none rfl).mpr (by decide)) rfl rfl (.last ((bar?_none rfl).mpr (by decide)) rfl))
  have hunbarred : j'.Unbarred := by
    obtain ⟨r, v, ls, ending⟩ := j'
    have hwalked : Walked x.settings g (contextOf q.seed x.heap) [] ls ending := hj'.walked
    rintro n fault rfl
    cases hwalked with
    | toured hstart htour' =>
      cases hstart
      cases (htour.unique htour').2
  exact ⟨j, j', hj, hj', hunbarred, hbypasses hunbarred⟩

end

end Run

end StepFlow
