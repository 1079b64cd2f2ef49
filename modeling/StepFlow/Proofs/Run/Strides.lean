/-
  StepFlow.Proofs.Run.Strides — the nodes that a run executes, by its deeds.

  A turn executes a node, or none. If it does, it sets the signal `active` to the node first,
  and then tells that the node is executing; the handler does neither. It sets the signal to
  nothing in the turn that ends the run. What a turn does is put together from its parts, and a
  run from its turns (`Strides.append`).

  Proved:
  (1) `Turns.strides`: what a turn does, by the node that it executes.
  (2) `course_strides`: what a run has done after that many turns, also if other runs are asked
      for in its pauses.
  (3) `course_latest`: a call that is out is that of the last node executed, and there is one
      before every pause.
-/

import StepFlow.Proofs.Run.Attribution
import StepFlow.Proofs.Run.Legs

namespace StepFlow.Run

open Script (Memory)

/-! ## What deeds show -/

namespace Deed

/-- What the signal is set to. -/
def active? : Deed → Option (Option String)
  | .shows (.node id) => some id
  | .shows (.entry _) | .notes _ => none

def told? : Deed → Option Entry
  | .shows (.entry e) => some e
  | .shows (.node _) | .notes _ => none

end Deed

/-- What the signal is set to, in turn. -/
def activity (ds : List (Place × Deed)) : List (Option String) := ds.filterMap (·.2.active?)

/-- What the log of the run is told. -/
def tidings (ds : List (Place × Deed)) : List Entry := ds.filterMap (·.2.told?)

theorem activity_append (ds es : List (Place × Deed)) : activity (ds ++ es) = activity ds ++ activity es :=
  List.filterMap_append

theorem tidings_append (ds es : List (Place × Deed)) : tidings (ds ++ es) = tidings ds ++ tidings es :=
  List.filterMap_append

/-- That a node is executing is told while the signal is set to that node. -/
def Punctual (ds : List (Place × Deed)) : Prop :=
  ∀ before d after e, ds = before ++ d :: after → d.2.told? = some e → isExecuting e = true →
    (activity before).getLast? = some (some e.nodeId)

theorem Punctual.append {ds es : List (Place × Deed)} (h : Punctual ds) (h' : Punctual es) : Punctual (ds ++ es) := by
  intro before d after e hsplit he hexecuting
  rcases List.append_eq_append_iff.mp hsplit with ⟨middle, rfl, hes⟩ | ⟨middle, rfl, hrest⟩
  · have hlast := h' middle d after e hes he hexecuting
    rw [activity_append, List.getLast?_append, hlast]
    rfl
  · cases middle with
    | nil =>
      have hlast := h' [] d after e hrest.symm he hexecuting
      cases hlast
    | cons d' middle =>
      obtain ⟨rfl, -⟩ := List.cons_eq_cons.mp hrest
      exact h before d middle e rfl he hexecuting

/-- Deeds that do not tell so are. -/
theorem punctual_quiet {ds : List (Place × Deed)} (h : (tidings ds).filter isExecuting = []) : Punctual ds := by
  rintro before d after e rfl he hexecuting
  have hmem : e ∈ tidings (before ++ d :: after) :=
    List.mem_filterMap.mpr ⟨d, List.mem_append_right _ List.mem_cons_self, he⟩
  exact absurd hexecuting (List.filter_eq_nil_iff.mp h e hmem)

/-! ## Strides -/

/-- From one walk to another, these nodes are executed by these deeds, and then the signal is
    set to what is left. -/
structure Strides (w w' : Walk) (ds : List (Place × Deed)) (ns : List Node) (rest : List (Option String)) : Prop where
  active : activity ds = ns.map (fun n => some n.id) ++ rest
  entries : w'.entries = w.entries ++ tidings ds
  executing : (tidings ds).filter isExecuting = ns.map executingEntry
  steps : w'.steps = w.steps + ns.length
  punctual : Punctual ds

theorem Strides.append {w w' w'' : Walk} {ds es : List (Place × Deed)} {ns ms : List Node} {rest : List (Option String)}
    (h : Strides w w' ds ns []) (h' : Strides w' w'' es ms rest) : Strides w w'' (ds ++ es) (ns ++ ms) rest := by
  refine ⟨?_, ?_, ?_, ?_, h.punctual.append h'.punctual⟩
  · rw [activity_append, h.active, h'.active, List.map_append, List.append_nil, List.append_assoc]
  · rw [h'.entries, h.entries, tidings_append, List.append_assoc]
  · rw [tidings_append, List.filter_append, h.executing, h'.executing, List.map_append]
  · rw [h'.steps, h.steps, List.length_append, Nat.add_assoc]

/-- Where nothing is told of nodes that are executing. -/
theorem Strides.quiet {w w' : Walk} {ds : List (Place × Deed)} {rest : List (Option String)} (ha : activity ds = rest)
    (he : w'.entries = w.entries ++ tidings ds) (hq : (tidings ds).filter isExecuting = []) (hs : w'.steps = w.steps) :
    Strides w w' ds [] rest := ⟨ha, he, hq, hs, punctual_quiet hq⟩

theorem Strides.nothing {w w' : Walk} (he : w'.entries = w.entries) (hs : w'.steps = w.steps) : Strides w w' [] [] [] :=
  .quiet rfl (he.trans (List.append_nil _).symm) rfl hs

/-- Leaving a block is no stride. -/
theorem Strides.left {w w' : Walk} {ds : List (Place × Deed)} {ns : List Node} {rest : List (Option String)}
    (h : Strides w w' ds ns rest) : Strides w w'.left ds ns rest :=
  ⟨h.active, h.entries, h.executing, h.steps, h.punctual⟩

/-! ## Parts of a turn -/

theorem opening_strides (w : Walk) (n : Node) : Strides w (w.executing n) (byRun (opening n)) [n] [] := by
  have hexecuting : isExecuting (executingEntry n) = true :=
    executing_isExecuting ⟨n, ⟨[], .empty⟩, .failure (.flow "")⟩
  have htold : tidings (byRun (opening n)) = [executingEntry n] := rfl
  refine ⟨rfl, rfl, ?_, rfl, ?_⟩
  · rw [htold, List.filter_cons_of_pos hexecuting]
    rfl
  · intro before d after e hsplit he _
    -- of the three deeds the second one tells, after the first one
    match before, hsplit with
    | [], hsplit =>
      cases hsplit
      cases he
    | [_], hsplit =>
      cases hsplit
      cases he
      rfl
    | [_, _], hsplit =>
      cases hsplit
      cases he
    | _ :: _ :: _ :: before, hsplit => simp [byRun, opening] at hsplit

theorem tidings_byHandler (n : Node) (es : List Effect) : tidings (byHandler n (es.map (·.deed n))) = told n es := by
  induction es with
  | nil => rfl
  | cons e es ih =>
    cases e with
    | emit message status => exact congrArg (_ :: ·) ih
    | log notice => exact ih

theorem activity_byHandler (n : Node) (es : List Effect) : activity (byHandler n (es.map (·.deed n))) = [] := by
  induction es with
  | nil => rfl
  | cons e es ih => cases e <;> exact ih

theorem handler_strides (w : Walk) (n : Node) (h : Handled) (hq : (told n h.effects).filter isExecuting = []) :
    Strides w (w.handled n h) (byHandler n (h.effects.map (·.deed n))) [] [] := by
  have htold := tidings_byHandler n h.effects
  exact .quiet (activity_byHandler n h.effects) (congrArg (w.entries ++ ·) htold.symm) (htold ▸ hq) rfl

/-- When its call is answered, a handler does not tell so either. -/
theorem told_resumed (n : Node) (c : Http.Call) (a : Http.Answer) (m : Memory) :
    (told n (Handler.resume n c a m).effects).filter isExecuting = [] := by
  unfold Handler.resume
  split
  · have hanswered : isExecuting (entryOf n "API Response received" .success) = false := by
      have hm : "API Response received".toList.take 2 = ['A', 'P'] := rfl
      exact isExecuting_false hm (by decide)
    rw [told_append, told_logs, List.nil_append]
    exact List.filter_cons_of_neg (by rw [hanswered]; decide)
  · exact congrArg (List.filter isExecuting) (told_logs n _)

/-- A run that has ended has set the signal to nothing. -/
def Progress.over : Progress → List (Option String)
  | .going _ => []
  | .ended _ => [none]

section

variable {w v : Walk} {x y : Executor} {r : Standing}

theorem ending_strides (e : Ending) (flow : Flow) (steps : Nat) :
    Strides w (w.telling [e.entry]) (byRun (e.deeds flow steps)) [] [none] := by
  have htold : tidings (byRun (e.deeds flow steps)) = [e.entry] := by cases e <;> rfl
  have hactive : activity (byRun (e.deeds flow steps)) = [none] := by cases e <;> rfl
  refine .quiet hactive (congrArg (w.entries ++ ·) htold.symm) ?_ rfl
  rw [htold]
  exact List.filter_cons_of_neg (by rw [ending_entry e]; decide)

theorem Goes.strides {way : Way} (h : Goes w x r way) (flow : Flow) (steps : Nat) :
    Strides w r.1.2 (byRun (way.deeds x.settings x.heap flow steps)) [] r.1.1.over := by
  cases h with
  | ends hc => exact (ending_strides _ flow steps).left
  | onto hp hk =>
    rw [Way.deeds, hp]
    exact .nothing rfl rfl
  | raises hp hc =>
    rw [Way.deeds, hp]
    exact .quiet rfl (List.append_nil _).symm rfl rfl

/-- A handler that is over has the deeds of its effects, and then those of the way that it goes. -/
theorem settled_deeds {h : Handled} (hr : ∀ c, h.reached ≠ .calling c) (n : Node) (s : Settings) (flow : Flow)
    (steps : Nat) :
    h.deeds n s flow steps = byHandler n (h.effects.map (·.deed n)) ++
      byRun ((wayFrom flow n (resumedResult h.reached)).deeds s h.memory.heap flow steps) := by
  unfold Handled.deeds
  cases hreached : h.reached with
  | calling c => exact absurd hreached (hr c)
  | done t | failed f => rfl

/-! ## Turns -/

/-- The node that the next turn executes, if it does. -/
def Standing.executes? (m : Standing) : Option Node :=
  match m.1.1 with
  | .going (.arriving n) => if (m.2.settings.bar? m.2.heap m.1.2.steps).isNone then some n else none
  | .going (.calling ..) | .going (.pausing ..) | .ended _ => none

theorem executes?_open {n : Node} (h : x.settings.bar? x.heap w.steps = none) :
    Standing.executes? ((.going (.arriving n), w), x) = some n := by
  simp only [Standing.executes?, h]
  rfl

theorem executes?_barred {n : Node} {f : NodeFault} (h : x.settings.bar? x.heap w.steps = some f) :
    Standing.executes? ((.going (.arriving n), w), x) = none := by
  simp only [Standing.executes?, h]
  rfl

theorem Turns.strides {stage : Stage} {e : Event} (ht : Turns w x stage e r) :
    Strides w r.1.2 (stage.deeds w x e) (Standing.executes? ((.going stage, w), x)).toList r.1.1.over := by
  cases ht with
  | @barred n f r hb hg =>
    have hgone := hg.strides w.flow w.steps
    rw [executes?_barred hb]
    simp only [Stage.deeds, hb]
    exact hgone
  | @calls n c y hb hr hk =>
    have hhandled := handler_strides (w.executing n) n (Handler.run n ⟨w.env, x.heap⟩) (told_run n _)
    rw [executes?_open hb]
    simp only [Stage.deeds, hb, Handled.deeds, hr, List.append_nil]
    exact (opening_strides w n).append hhandled
  | @visits n r hb hr hg =>
    have hhandled := handler_strides (w.executing n) n (Handler.run n ⟨w.env, x.heap⟩) (told_run n _)
    have hgone := hg.strides w.flow (w.steps + 1)
    rw [executes?_open hb]
    simp only [Stage.deeds, hb, settled_deeds hr]
    exact (opening_strides w n).append (hhandled.left.append hgone)
  | @resumes n c a r hg =>
    have hhandled := handler_strides w n (Handler.resume n c a ⟨w.env, x.heap⟩) (told_resumed n c a _)
    have hgone := hg.strides w.flow w.steps
    simp only [Stage.deeds, settled_deeds (resume_settles n c a _)]
    exact hhandled.left.append hgone
  | wakes => exact .nothing rfl rfl
  | disturbed hc => exact .quiet rfl (List.append_nil _).symm rfl rfl

/-! ## The last node -/

/-- The call that is out is that of the last of these nodes; before a pause there is one. -/
def Latest (ns : List Node) : Progress → Prop
  | .going (.calling n _) => ns.getLast? = some n
  | .going (.pausing ..) => ns ≠ []
  | .going (.arriving _) | .ended _ => True

theorem Goes.latest {way : Way} (h : Goes w x r way) {ns : List Node} (hns : ns ≠ []) : Latest ns r.1.1 := by
  cases h with
  | ends | raises => trivial
  | @onto pace next y hp hk =>
    cases pace with
    | none => trivial
    | some seconds => exact hns

theorem Turns.latest {stage : Stage} {e : Event} (ht : Turns w x stage e r) {ns : List Node}
    (h : Latest ns (.going stage)) :
    Latest (ns ++ (Standing.executes? ((.going stage, w), x)).toList) r.1.1 := by
  cases ht with
  | barred hb hg =>
    cases hg with
    | ends => trivial
  | calls hb hr hk =>
    rw [executes?_open hb]
    exact List.getLast?_concat
  | visits hb hr hg =>
    rw [executes?_open hb]
    exact hg.latest (List.append_ne_nil_of_right_ne_nil _ (List.cons_ne_nil _ _))
  | @resumes n c a r hg =>
    have hlast : ns.getLast? = some n := h
    refine hg.latest (List.append_ne_nil_of_left_ne_nil ?_ _)
    rintro rfl
    cases hlast
  | wakes => trivial
  | disturbed hc => trivial

end

/-! ## Runs -/

/-- The nodes that a run has executed after that many turns, in their order. -/
def Venture.executed (v : Venture) (x : Executor) : Nat → List Node
  | 0 => []
  | k + 1 => v.executed x k ++ (v.course x k).executes?.toList

section

variable {q : Request}

theorem begun_strides (q : Request) (x : Executor) :
    Strides (.initial q.caller q.tag q.flow q.seed) (q.begun x).1.2 (beginning q.flow) [] (q.begun x).1.1.over := by
  obtain ⟨hquiet, -⟩ := begun_executing q x
  rcases begun_cases q x with ⟨hn, y, hy, -⟩ | ⟨n, y, hn, hy, -⟩
  · rw [hy] at hquiet ⊢
    unfold beginning
    rw [hn]
    exact .quiet rfl rfl hquiet rfl
  · rw [hy] at hquiet ⊢
    unfold beginning
    rw [hn]
    exact .quiet rfl rfl hquiet rfl

/-- Requests in a pause are only noted. -/
theorem rejections_strides (m : Standing) (bs : List Bid) : Strides m.1.2 m.1.2 (m.rejections bs) [] [] := by
  unfold Standing.rejections
  split
  · have hnotes : ∀ bs : List Bid, activity (byRun (bs.map fun b => .notes (rejectedNotice b.flow))) = [] ∧
        tidings (byRun (bs.map fun b => .notes (rejectedNotice b.flow))) = [] := by
      intro bs
      induction bs with
      | nil => exact ⟨rfl, rfl⟩
      | cons b bs ih => exact ih
    obtain ⟨hactive, htold⟩ := hnotes bs
    exact .quiet hactive (by rw [htold, List.append_nil]) (by rw [htold]; rfl) rfl
  · exact .nothing rfl rfl

theorem bidden_executes (m : Standing) (bs : List Bid) : (m.bidden bs).executes? = m.executes? := by
  obtain ⟨⟨pr, w⟩, x⟩ := m
  cases pr with
  | ended e => rfl
  | going stage => cases stage <;> rfl

theorem bidden_ended {m : Standing} {e : Ended} (h : m.1.1 = .ended e) (bs : List Bid) : m.bidden bs = m := by
  rw [Standing.bidden, h]

theorem turned_strides (m : Standing) (s : Surroundings) (k : Nat) (hm : ∃ stage, m.1.1 = .going stage) :
    Strides m.1.2 (m.turned s k).1.2 (m.deeds s k) m.executes?.toList (m.turned s k).1.1.over := by
  obtain ⟨⟨pr, w⟩, x⟩ := m
  obtain ⟨stage, rfl⟩ := hm
  exact (turn_cases s k stage w x).strides

end

section

variable (v : Venture) (x : Executor)

theorem venture_turns {k : Nat} {stage : Stage} (h : (v.course x k).1.1 = .going stage) :
    Turns (v.course x k).1.2 ((v.course x k).bidden (v.bids k)).2 stage (v.surroundings.event k stage)
      (v.course x (k + 1)) := by
  have hgoing : ((v.course x k).bidden (v.bids k)).1.1 = .going stage := by rw [bidden_fst, h]
  rw [Venture.course, turned_going v.surroundings hgoing, bidden_fst]
  exact turn_cases v.surroundings k stage _ _

theorem venture_over {k : Nat} {e : Ended} (h : (v.course x k).1.1 = .ended e) : v.course x (k + 1) = v.course x k := by
  rw [Venture.course, bidden_ended h, Standing.turned, h]

theorem course_strides (k : Nat) :
    Strides (.initial v.request.caller v.request.tag v.request.flow v.request.seed) (v.course x k).1.2 (v.deeds x k)
      (v.executed x k) (v.course x k).1.1.over := by
  induction k with
  | zero => exact begun_strides v.request x
  | succ k ih =>
    rw [Venture.deeds, Venture.executed]
    cases hk : (v.course x k).1.1 with
    | going stage =>
      rw [hk] at ih
      have hgoing : ((v.course x k).bidden (v.bids k)).1.1 = .going stage := by rw [bidden_fst, hk]
      have hturn := turned_strides _ v.surroundings k ⟨stage, hgoing⟩
      rw [bidden_executes, bidden_fst] at hturn
      exact ih.append ((rejections_strides _ (v.bids k)).append hturn)
    | ended e =>
      rw [venture_over v x hk, bidden_ended hk, Standing.rejections, Standing.deeds, Standing.executes?, hk]
      rw [hk] at ih
      show Strides _ _ (v.deeds x k ++ []) (v.executed x k ++ []) _
      rw [List.append_nil, List.append_nil]
      exact ih

theorem course_latest (k : Nat) : Latest (v.executed x k) (v.course x k).1.1 := by
  induction k with
  | zero =>
    rcases begun_cases v.request x with ⟨-, y, hy, -⟩ | ⟨n, y, -, hy, -⟩
    · rw [Venture.course, hy]
      trivial
    · rw [Venture.course, hy]
      trivial
  | succ k ih =>
    cases hk : (v.course x k).1.1 with
    | ended e =>
      rw [venture_over v x hk, hk]
      trivial
    | going stage =>
      have hexecutes : (v.course x k).executes? =
          Standing.executes? ((.going stage, (v.course x k).1.2), ((v.course x k).bidden (v.bids k)).2) := by
        rw [← bidden_executes _ (v.bids k), Standing.executes?, bidden_fst, hk]
        rfl
      rw [hk] at ih
      rw [Venture.executed, hexecutes]
      exact (venture_turns v x hk).latest ih

end

end StepFlow.Run
