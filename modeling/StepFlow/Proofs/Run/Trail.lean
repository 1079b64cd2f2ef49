/-
  StepFlow.Proofs.Run.Trail — the trail that a run leaves on the signal `active`.

  A run sets the signal to each node that it executes, and to nothing when it ends; the signal
  publishes what is new to it. So it publishes the walk of the run without stutters: a node
  that is executed again at once, or another one of the same id, is not published twice, and
  nothing is not published after a run that has executed no node.
  - Callbacks may fail, subscribe, and publish on the other channel; none sets the signal.
  - Nothing is assumed of the flow, the settings and the surroundings: the run may end in any
    way, and other runs may be asked for in its pauses.

  Proved:
  (1) `published_changes`: deeds publish the changes among what they set the signal to, and
      leave it with the last of that.
  (2) `trailed`: the trail of a run after each turn, and what the signal holds when an entry
      tells that a node is executing, while its handler is at work, and in every pause.
  (3) `Executor.Used.free`: however an executor is used, nothing is active between its runs.
  (4) `follow_trails`: runs that follow one another leave one trail after the other.
-/

import StepFlow.Proofs.Channel.Publications
import StepFlow.Proofs.Run.Cleanup
import StepFlow.Proofs.Run.Strides

namespace StepFlow.Run

open Script (Memory)

/-! ## Changes -/

section

variable {α : Type} [DecidableEq α]

/-- Those of the values that differ from the one before, where the first one comes after `a`. -/
def changes (a : α) (vs : List α) : List α := (vs.destutter' (· ≠ ·) a).tail

theorem destutter'_changes (a : α) (vs : List α) : vs.destutter' (· ≠ ·) a = a :: changes a vs := by
  unfold changes
  induction vs generalizing a with
  | nil => rfl
  | cons v vs ih =>
    by_cases h : a ≠ v
    · rw [List.destutter'_cons_pos _ h]
      rfl
    · rw [List.destutter'_cons_neg _ h]
      exact ih a

theorem changes_new {a v : α} (h : a ≠ v) (vs : List α) : changes a (v :: vs) = v :: changes v vs := by
  rw [changes, List.destutter'_cons_pos _ h, destutter'_changes]
  rfl

theorem changes_same (a : α) (vs : List α) : changes a (a :: vs) = changes a vs := by
  rw [changes, List.destutter'_cons_neg _ (fun h => h rfl)]
  rfl

end

/-- The changes of ids, and then to nothing if the run has ended. -/
theorem changes_over (p : Progress) (id : String) (ids : List String) :
    changes (some id) (ids.map some ++ p.over) = (changes id ids).map some ++ p.over := by
  induction ids generalizing id with
  | nil =>
    cases p with
    | going stage => rfl
    | ended e => exact changes_new (Option.some_ne_none id) []
  | cons next ids ih =>
    rw [List.map_cons, List.cons_append]
    by_cases h : id = next
    · subst h
      rw [changes_same, changes_same, ih]
    · rw [changes_new (fun he => h (Option.some.inj he)), changes_new h, ih]
      rfl

/-- From nothing, these are the ids without stutters, and then nothing, unless there is no id. -/
theorem changes_walk (p : Progress) (ids : List String) :
    changes none (ids.map some ++ p.over) =
      (ids.destutter (· ≠ ·)).map some ++ if ids.isEmpty then [] else p.over := by
  cases ids with
  | nil =>
    cases p with
    | going stage => rfl
    | ended e => exact changes_same none []
  | cons id ids =>
    rw [List.map_cons, List.cons_append, changes_new (Option.some_ne_none id).symm, changes_over,
      List.destutter_cons', destutter'_changes]
    rfl

/-! ## What deeds publish -/

/-- What the deed does on the board. -/
def Deed.action? : Deed → Option (Channel.Action Line Signal)
  | .shows (.entry e) => some (.publish .logs (.entry e) none)
  | .shows (.node id) => some (.set .active (.node id))
  | .notes _ => none

def actionsOf (ds : List (Place × Deed)) : List (Channel.Action Line Signal) := ds.filterMap (·.2.action?)

/-- What a run publishes on the signal itself by deeds on this board. -/
def publications (rules : Channel.Rules Line Signal) (b : Channel.Board Line Signal) (ds : List (Place × Deed)) :
    List Signal :=
  Channel.valuesOn .active (b.along rules (fun b a => b.publishes rules a) (actionsOf ds))

theorem boardAfter_actions (rules : Channel.Rules Line Signal) (ds : List (Place × Deed))
    (b : Channel.Board Line Signal) : boardAfter rules b ds = b.after rules (actionsOf ds) := by
  induction ds generalizing b with
  | nil => rfl
  | cons d ds ih =>
    obtain ⟨place, d⟩ := d
    cases d with
    | notes n => exact ih b
    | shows s => cases s <;> exact ih _

theorem actions_honest (ds : List (Place × Deed)) : ∀ a ∈ actionsOf ds, a.publishesOn .active = false := by
  intro a ha
  obtain ⟨⟨place, d⟩, -, hd⟩ := List.mem_filterMap.mp ha
  cases d with
  | notes n => cases hd
  | shows s => cases s <;> cases hd <;> rfl

section

variable {x : Executor} {b : Channel.Board Line Signal} {a : Option String}

/-- Deeds publish the changes, and the signal is left with what it is set to last. -/
theorem published_changes (hq : x.rules.Spares .active) (ds : List (Place × Deed))
    (hb : b.value? .active = some (.node a)) :
    publications x.rules b ds = (changes a (activity ds)).map .node ∧
      (boardAfter x.rules b ds).value? .active = some (.node ((activity ds).getLastD a)) := by
  induction ds generalizing b a with
  | nil => exact ⟨rfl, hb⟩
  | cons d ds ih =>
    obtain ⟨place, d⟩ := d
    cases d with
    | notes n => exact ih hb
    | shows s =>
      cases s with
      | entry e =>
        have hvalue : (showOn x.rules b (.entry e)).value? .active = some (.node a) :=
          (Channel.publish_value hq .logs (.entry e) b).trans hb
        obtain ⟨hpublished, hheld⟩ := ih hvalue
        have hsplit : publications x.rules b ((place, .shows (.entry e)) :: ds) =
            publications x.rules (showOn x.rules b (.entry e)) ds :=
          Channel.valuesOn_append Line.active [(Line.logs, Signal.entry e)] _
        exact ⟨hsplit.trans hpublished, hheld⟩
      | node id =>
        have hvalue : (showOn x.rules b (.node id)).value? .active = some (.node id) := by
          obtain ⟨w, hw, hsame⟩ := Channel.set_value hq (.node id) hb
          have hid : w = .node id := hsame.elim (fun h => h) fun h => (eq_of_beq h).symm
          rw [hid] at hw
          exact hw
        obtain ⟨hpublished, hheld⟩ := ih hvalue
        have hactive : activity ((place, .shows (.node id)) :: ds) = id :: activity ds := rfl
        have hsplit : publications x.rules b ((place, .shows (.node id)) :: ds) =
            Channel.valuesOn .active (b.publishes x.rules (.set .active (.node id))) ++
              publications x.rules (showOn x.rules b (.node id)) ds :=
          Channel.valuesOn_append Line.active _ _
        refine ⟨?_, by rw [hactive, List.getLastD_cons]; exact hheld⟩
        rw [hsplit, hpublished, hactive]
        by_cases h : a = id
        · have hnothing : b.publishes x.rules (.set .active (.node id)) = [] := by
            simp [Channel.Board.publishes, hb, h, Executor.rules]
          rw [hnothing, h, changes_same]
          rfl
        · have hone : b.publishes x.rules (.set .active (.node id)) = [(.active, .node id)] := by
            simp [Channel.Board.publishes, hb, Executor.rules, Ne.symm h]
          rw [hone, changes_new h]
          rfl

end

/-! ## Runs -/

/-- Nothing is active. -/
def Executor.Idle (x : Executor) : Prop := x.board.value? .active = some (.node none)

/-- The ids of the executed nodes without stutters; then nothing, if the run has ended and has
    executed a node. -/
def Venture.trail (v : Venture) (x : Executor) (k : Nat) : List (Option String) :=
  (((v.executed x k).map (·.id)).destutter (· ≠ ·)).map some ++
    if (v.executed x k).isEmpty then [] else (v.course x k).1.1.over

/-- What a run does in a turn before the handler is at work. -/
def Stage.lead : Stage → List (Place × Deed)
  | .arriving n => byRun (opening n)
  | .calling .. | .pausing .. => []

/-- What a run has done when the handler has done so many of its effects in the next turn. -/
def Venture.amid (v : Venture) (x : Executor) (k : Nat) (stage : Stage) (h : Handled) (i : Nat) : List (Place × Deed) :=
  v.deeds x k ++ (stage.lead ++ byHandler stage.node ((h.effects.take i).map (·.deed stage.node)))

/-- The trail of a run after each turn, and what the signal holds meanwhile. -/
structure Trailed (v : Venture) (x : Executor) : Prop where
  accepted : (request v.request.caller v.request.tag v.request.flow v.request.seed).run x =
    (ofProgress (v.course x 0).1, (v.course x 0).2)
  driven : ∀ k stage, (v.course x k).1.1 = .going stage →
    (Process.next ⟨(v.course x k).1.2, stage⟩ (v.surroundings.event k stage)).run
      ((v.course x k).bidden (v.bids k)).2 = (ofProgress (v.course x (k + 1)).1, (v.course x (k + 1)).2)
  /-- All that happens on the board are the deeds of the run. -/
  board : ∀ k, (v.course x k).2.board = boardAfter x.rules x.board (v.deeds x k)
  /-- The run counts the executed nodes, and its log tells of them. -/
  steps : ∀ k, (v.course x k).1.2.steps = (v.executed x k).length
  log : ∀ k, (v.course x k).1.2.entries.filter isExecuting = (v.executed x k).map executingEntry
  /-- What the run publishes on the signal is its trail, -/
  own : ∀ k, publications x.rules x.board (v.deeds x k) = (v.trail x k).map .node
  /-- and the signal is set to nothing else meanwhile. -/
  published : ∀ k, Channel.Publishes x.rules .active x.board ((v.trail x k).map .node) (v.course x k).2.board
  /-- The entries of the log are told in turn; where one tells that a node is executing, the
      signal holds the id of that node. -/
  told : ∀ k, (v.course x k).1.2.entries = tidings (v.deeds x k)
  executing : ∀ k before d after e, v.deeds x k = before ++ d :: after → d.2.told? = some e → isExecuting e = true →
    (boardAfter x.rules x.board before).value? .active = some (.node (some e.nodeId))
  /-- So it is while the handler of a node is at work, -/
  handling : ∀ k stage h, (v.course x k).1.1 = .going stage →
    (v.course x k).part? stage (v.surroundings.event k stage) = some h → ∀ i,
      v.amid x k stage h i <+: v.deeds x (k + 1) ∧
        (boardAfter x.rules x.board (v.amid x k stage h i)).value? .active = some (.node (some stage.node.id))
  /-- and waits for the answer to its call. -/
  calling : ∀ k n c, (v.course x k).1.1 = .going (.calling n c) → (v.course x k).2.activeNode = some n.id
  /-- In a pause, the signal holds the id of the last node executed. -/
  pausing : ∀ k next seconds, (v.course x k).1.1 = .going (.pausing next seconds) →
    ∃ n, (v.executed x k).getLast? = some n ∧ (v.course x k).2.activeNode = some n.id
  /-- When the run has ended, another one may follow. -/
  idle : ∀ k e, (v.course x k).1.1 = .ended e → (v.course x k).2.Idle ∧ (v.course x k).2.locked = false

section

variable {x : Executor}

theorem activeNode_held {y : Executor} {id : Option String} (h : y.board.value? .active = some (.node id)) :
    y.activeNode = id := by
  rw [Executor.activeNode, h]

/-- What the signal holds when a run has done that. -/
theorem held_after (hq : x.rules.Spares .active) (hi : x.Idle) {ds : List (Place × Deed)} {id : Option String}
    (hlast : (activity ds).getLast? = some id) : (boardAfter x.rules x.board ds).value? .active = some (.node id) := by
  rw [(published_changes hq ds hi).2, List.getLastD_eq_getLast?, hlast]
  rfl

theorem trail_published (hq : x.rules.Spares .active) (hi : x.Idle) (v : Venture) (k : Nat) :
    publications x.rules x.board (v.deeds x k) = (v.trail x k).map .node := by
  have hwalk := changes_walk (v.course x k).1.1 ((v.executed x k).map (·.id))
  rw [(published_changes hq _ hi).1, (course_strides v x k).active, Venture.trail, ← List.isEmpty_map, ← hwalk,
    List.map_map]
  rfl

theorem course_board (v : Venture) (x : Executor) (k : Nat) :
    (v.course x k).2.board = boardAfter x.rules x.board (v.deeds x k) := (course_did v x k).board

/-- While a run goes on, the signal holds the id of the last node executed. -/
theorem latest_activity {v : Venture} {k : Nat} {stage : Stage} {n : Node} (hk : (v.course x k).1.1 = .going stage)
    (hn : (v.executed x k).getLast? = some n) : (activity (v.deeds x k)).getLast? = some (some n.id) := by
  rw [(course_strides v x k).active, hk]
  show (_ ++ []).getLast? = _
  rw [List.append_nil, List.getLast?_map, hn]
  rfl

theorem latest_active (hq : x.rules.Spares .active) (hi : x.Idle) {v : Venture} {k : Nat} {stage : Stage} {n : Node}
    (hk : (v.course x k).1.1 = .going stage) (hn : (v.executed x k).getLast? = some n) :
    (v.course x k).2.activeNode = some n.id := by
  refine activeNode_held ?_
  rw [course_board]
  exact held_after hq hi (latest_activity hk hn)

/-- A turn in which a handler is at work: the run leads up to it, and then come its effects. -/
theorem handler_deeds {m : Standing} {s : Surroundings} {k : Nat} {stage : Stage} {h : Handled}
    (hm : m.1.1 = .going stage) (hh : m.part? stage (s.event k stage) = some h) (bs : List Bid) :
    m.rejections bs = [] ∧ m.bidden bs = m ∧
      ∃ rest, m.deeds s k = stage.lead ++ (byHandler stage.node (h.effects.map (·.deed stage.node)) ++ rest) := by
  obtain ⟨⟨pr, w⟩, y⟩ := m
  cases hm
  cases stage with
  | arriving n =>
    cases hb : y.settings.bar? y.heap w.steps with
    | some f =>
      simp only [Surroundings.event, Standing.part?, hb] at hh
      cases hh
    | none =>
      simp only [Surroundings.event, Standing.part?, hb] at hh
      cases hh
      obtain ⟨rest, hrest⟩ : ∃ rest, (Handler.run n ⟨w.env, y.heap⟩).deeds n y.settings w.flow (w.steps + 1) =
          byHandler n ((Handler.run n ⟨w.env, y.heap⟩).effects.map (·.deed n)) ++ rest := ⟨_, rfl⟩
      refine ⟨rfl, rfl, rest, ?_⟩
      simp only [Standing.deeds, Surroundings.event, Stage.deeds, hb, hrest]
      rfl
  | calling n c =>
    cases hh
    exact ⟨rfl, rfl, _, rfl⟩
  | pausing n seconds => cases hh

theorem amid_handler (hq : x.rules.Spares .active) (hi : x.Idle) {v : Venture} {k : Nat} {stage : Stage} {h : Handled}
    (hk : (v.course x k).1.1 = .going stage)
    (hh : (v.course x k).part? stage (v.surroundings.event k stage) = some h) (i : Nat) :
    v.amid x k stage h i <+: v.deeds x (k + 1) ∧
      (boardAfter x.rules x.board (v.amid x k stage h i)).value? .active = some (.node (some stage.node.id)) := by
  refine ⟨?_, held_after hq hi ?_⟩
  · obtain ⟨hnone, hsame, rest, hdeeds⟩ := handler_deeds hk hh (v.bids k)
    have hwhole : v.deeds x (k + 1) = v.deeds x k ++
        (stage.lead ++ (byHandler stage.node (h.effects.map (·.deed stage.node)) ++ rest)) := by
      rw [Venture.deeds, hnone, hsame, hdeeds]
      rfl
    have htaken : byHandler stage.node ((h.effects.take i).map (·.deed stage.node)) <+:
        byHandler stage.node (h.effects.map (·.deed stage.node)) := ((List.take_prefix i h.effects).map _).map _
    rw [hwhole, Venture.amid, List.prefix_append_right_inj, List.prefix_append_right_inj]
    exact htaken.trans (List.prefix_append _ rest)
  · rw [Venture.amid, activity_append, activity_append, activity_byHandler, List.append_nil]
    cases stage with
    | arriving n => exact List.getLast?_concat
    | calling n c =>
      have hlatest : Latest (v.executed x k) (.going (.calling n c)) := hk ▸ course_latest v x k
      show (_ ++ []).getLast? = _
      rw [List.append_nil]
      exact latest_activity hk hlatest
    | pausing n seconds => cases hh

theorem course_told (v : Venture) (x : Executor) (k : Nat) : (v.course x k).1.2.entries = tidings (v.deeds x k) :=
  (course_strides v x k).entries

theorem trailed (hx : x.locked = false) (hq : x.rules.Spares .active) (hi : x.Idle) (v : Venture) : Trailed v x where
  accepted := (attributed hx v).accepted
  driven := (attributed hx v).driven
  board := course_board v x
  steps k := (course_strides v x k).steps.trans (Nat.zero_add _)
  log k := by
    rw [course_told]
    exact (course_strides v x k).executing
  own := trail_published hq hi v
  published k := by
    have hpublishes := Channel.after_publishes hq (actions_honest (v.deeds x k)) x.board
    rw [← boardAfter_actions, ← course_board] at hpublishes
    rw [← trail_published hq hi v k]
    exact hpublishes
  told := course_told v x
  executing k before d after e hsplit he hexecuting :=
    held_after hq hi ((course_strides v x k).punctual before d after e hsplit he hexecuting)
  handling k stage h hk hh := amid_handler hq hi hk hh
  calling k n c hk := by
    have hlatest : Latest (v.executed x k) (.going (.calling n c)) := hk ▸ course_latest v x k
    exact latest_active hq hi hk hlatest
  pausing k next seconds hk := by
    have hsome : Latest (v.executed x k) (.going (.pausing next seconds)) := hk ▸ course_latest v x k
    have hlast := List.getLast?_eq_getLast_of_ne_nil hsome
    exact ⟨_, hlast, latest_active hq hi hk hlast⟩
  idle k e hk := by
    have hactivity : (activity (v.deeds x k)).getLast? = some none := by
      rw [(course_strides v x k).active, hk]
      exact List.getLast?_concat
    refine ⟨?_, ?_⟩
    · rw [Executor.Idle, course_board]
      exact held_after hq hi hactivity
    · rw [(course_kept v x k).locked, hk]
      rfl

/-! ## Executors in use -/

/-- An executor as it is made and used: outside of runs, anything is done on its channels but to
    set the signal, and anything else is changed; and runs are made, one after another. -/
inductive Executor.Used : Executor → Prop
  | made (settings : Settings) (logger : Log.Logger) (heap : Heap)
      (program : String → List (Channel.Action Line Signal)) :
      Used { Executor.create settings logger heap with program }
  | outside {x : Executor} {as : List (Channel.Action Line Signal)} : x.Used → (∀ a ∈ as, a.sets .active = false) →
      Used { x with board := x.board.after x.rules as }
  | changed {x : Executor} (settings : Settings) (logger : Log.Logger) (heap : Heap) : x.Used →
      Used { x with settings, logger, heap }
  | ran {x : Executor} {v : Venture} {k : Nat} {e : Ended} : x.Used → (v.course x k).1.1 = .ended e →
      Used (v.course x k).2

theorem after_spared {rules : Channel.Rules Line Signal} (hq : rules.Spares .active) (b : Channel.Board Line Signal)
    {as : List (Channel.Action Line Signal)} (ha : ∀ a ∈ as, a.sets .active = false) :
    (b.after rules as).value? .active = b.value? .active := by
  induction as generalizing b with
  | nil => rfl
  | cons a as ih =>
    have hfirst := Channel.performBy_leaves (Channel.performWithin_leaves hq Channel.nestingLimit) hq none a
      (ha a List.mem_cons_self) b
    exact (ih _ fun a' ha' => ha a' (List.mem_cons_of_mem a ha')).trans hfirst

theorem course_rules (v : Venture) (x : Executor) (k : Nat) : (v.course x k).2.rules = x.rules := by
  rw [Executor.rules, Executor.rules, (course_did v x k).program]

/-- Between its runs, an executor is free, and nothing is active. -/
theorem Executor.Used.free (h : x.Used) (hq : x.rules.Spares .active) : x.locked = false ∧ x.Idle := by
  induction h with
  | made => exact ⟨rfl, rfl⟩
  | outside _ ha ih =>
    obtain ⟨hfree, hidle⟩ := ih hq
    exact ⟨hfree, (after_spared hq _ ha).trans hidle⟩
  | changed _ _ _ _ ih => exact ih hq
  | @ran x v k e _ hk ih =>
    rw [course_rules] at hq
    obtain ⟨hfree, hidle⟩ := ih hq
    exact ((trailed hfree hq hidle v).idle k e hk).symm

/-! ## Runs that follow one another -/

/-- The trails of whole runs, each on the executor that the one before has left. -/
inductive Trails : Executor → List Venture → List (List (Option String)) → Executor → Prop
  | nil (x : Executor) : Trails x [] [] x
  | cons {x y : Executor} {v : Venture} {vs : List Venture} {trails : List (List (Option String))} {k : Nat}
      {e : Ended} :
      Trailed v x → (v.course x k).1.1 = .ended e → Trails (v.course x k).2 vs trails y →
      Trails x (v :: vs) (v.trail x k :: trails) y

theorem follow_trails {y : Executor} {vs : List Venture} (hx : x.locked = false) (hq : x.rules.Spares .active)
    (hi : x.Idle) (h : Follow x vs y) : ∃ trails, Trails x vs trails y ∧
      Channel.Publishes x.rules .active x.board (trails.flatten.map .node) y.board := by
  induction h with
  | nil x => exact ⟨[], .nil x, .nil x.board⟩
  | @cons x y v vs k e hk hrest ih =>
    have htrailed := trailed hx hq hi v
    obtain ⟨hidle, hfree⟩ := htrailed.idle k e hk
    have hrules := course_rules v x k
    obtain ⟨trails, htrails, hpublishes⟩ := ih hfree (hrules ▸ hq) hidle
    refine ⟨v.trail x k :: trails, .cons htrailed hk htrails, ?_⟩
    rw [List.flatten_cons, List.map_append]
    exact (htrailed.published k).trans (hrules ▸ hpublishes)

/-- The trail of a run on the signal is its walk without stutters, and runs that follow one
    another leave one trail after the other. -/
theorem trail_is_the_walk_without_stutters (hu : x.Used) (hq : x.rules.Spares .active) :
    (∀ v, Trailed v x) ∧
      ∀ vs y, Follow x vs y → ∃ trails, Trails x vs trails y ∧
        Channel.Publishes x.rules .active x.board (trails.flatten.map .node) y.board := by
  obtain ⟨hfree, hidle⟩ := hu.free hq
  exact ⟨trailed hfree hq hidle, fun _ _ => follow_trails hfree hq hidle⟩

end

/-- The second node leads back to itself, and the budget ends the run at its fourth step; in
    every pause another run is asked for. One observer fails, and the other one gets the trail.
    A second run follows. -/
theorem trail_of_a_loop :
    let start : Node := ⟨"s", .start, .origin, ⟨"Start", none, none, none, none⟩⟩
    let task : Node := ⟨"t", .task, .origin, ⟨"Task", none, none, none, none⟩⟩
    let flow : Flow := ⟨"f", "Loop", none, [start, task], [⟨"c", "s", "t", none⟩, ⟨"d", "t", "t", none⟩]⟩
    let made : Executor :=
      { Executor.create ⟨.scalar (.int 5), .scalar (.int 4)⟩ ⟨0, []⟩ .empty with
        program := fun name => if name = "broken" then [.fail] else [] }
    let x : Executor :=
      { made with
        board := made.board.after made.rules [.subscribe .active "broken" "1", .subscribe .active "recorder" "2"] }
    let s : Surroundings := ⟨fun _ => .failure (.flow ""), fun _ => .ok ()⟩
    let v : Venture := ⟨⟨⟨"", ""⟩, "a", flow, []⟩, s, fun _ => [⟨"u", flow, []⟩]⟩
    let second : Venture := ⟨⟨⟨"", ""⟩, "b", flow, []⟩, s, fun _ => []⟩
    let y : Executor := (second.course (v.course x 9).2 9).2
    x.Used ∧ x.rules.Spares .active ∧ Trailed v x ∧
      ((v.executed x 9).map (·.id), v.trail x 9) = (["s", "t", "t", "t"], [some "s", some "t", none]) ∧
      (∃ trails, Trails x [v, second] trails y ∧
        Channel.Publishes x.rules .active x.board (trails.flatten.map .node) y.board) ∧
      y.board.received .active (.callback "recorder") =
        [some "s", some "t", none, some "s", some "t", none].map .node := by
  intro start task flow made x s v second y
  have hused : x.Used := (Executor.Used.made _ _ _ _).outside (by decide)
  have hq : x.rules.Spares .active := by
    intro name a ha
    by_cases hname : name = "broken"
    · simp [x, made, Executor.rules, hname] at ha
      rw [ha]
      rfl
    · simp [x, made, Executor.rules, hname] at ha
  have hover : (v.course x 9).1.1.holds true = false ∧ (second.course (v.course x 9).2 9).1.1.holds true = false := by
    decide +kernel
  refine ⟨hused, hq, (trail_is_the_walk_without_stutters hused hq).1 v, by decide +kernel, ?_, by decide +kernel⟩
  cases hfirst : (v.course x 9).1.1 with
  | going stage =>
    rw [hfirst] at hover
    cases hover.1
  | ended e =>
    cases hlast : (second.course (v.course x 9).2 9).1.1 with
    | going stage =>
      rw [hlast] at hover
      cases hover.2
    | ended e' =>
      have hfollow : Follow x [v, second] y := .cons hfirst (.cons hlast (.nil _))
      exact (trail_is_the_walk_without_stutters hused hq).2 [v, second] y hfollow

end StepFlow.Run
