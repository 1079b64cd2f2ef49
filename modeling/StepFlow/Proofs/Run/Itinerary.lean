/-
  StepFlow.Proofs.Run.Itinerary — every run is the walk that its flow describes.

  The walk is told in terms of the flow alone: it starts at the first start node, and from a
  node it takes the first connection that leaves the node, for a decision only among those
  tagged with the truth of its condition, to the first node with the id that the connection
  names (`successor?`). A leg of it is a visit with the memory that the visits before have
  left and the answer that the client gives. Nodes may share their ids: the start node is
  found by its type, all others by their ids.

  Proved, for every flow, seed, client and whole number as budget:
  (1) `Tour.itinerary`: a tour from the start node is such a walk, no longer than the budget
      allows, and its last leg tells the outcome.
  (2) `result_executing`: the nodes that the run tells to be executing are those of the walk.
  So every run ends, after as many steps as there are legs, and if there are pauses there is
  one for each connection that was followed.
-/

import StepFlow.Proofs.Run.Driving

namespace StepFlow.Run

open Script (Memory)

/-! ## The walk of a flow -/

/-- The first connection that leaves a node; a decision is left by the port of its condition. -/
def connectionFrom? (flow : Flow) (n : Node) (m : Memory) : Option Connection :=
  flow.connections.find? fun c =>
    c.source == n.id && (n.type != .decision || c.sourcePort == some (if conditionHolds n m then "true" else "false"))

/-- The first node with the id that the connection names. -/
def successor? (flow : Flow) (n : Node) (m : Memory) : Option Node :=
  (connectionFrom? flow n m).bind fun c => flow.nodes.find? (·.id == c.target)

/-- What becomes of a run at a node. -/
inductive Fate where
  | fails
  | ends
  /-- No connection leads on, or the one that does leads to no node. -/
  | strands
  | goesTo (next : Node)

namespace Leg

def fate (flow : Flow) (l : Leg) : Fate :=
  match l.visit.result with
  | .error _ => .fails
  | .ok _ =>
    if l.node.type = .finish then .ends
    else match successor? flow l.node l.before with
      | none => .strands
      | some next => .goesTo next

/-- A connection is followed from the node to another one. -/
def goesOn (flow : Flow) (l : Leg) : Bool :=
  match l.fate flow with
  | .goesTo _ => true
  | .fails | .ends | .strands => false

end Leg

/-- The calls of the legs are answered in turn. -/
def Answered : List Http.Answer → List Leg → Prop
  | _, [] => True
  | as, l :: ls => l.answer = (Http.nextAnswer as).1 ∧ Answered (l.unused as) ls

/-- The entry tells that a node is executing. -/
def isExecuting (e : Entry) : Bool := NodeType.all.any fun t => e.message == "Executing " ++ t.text

/-- The legs are the walk of a run through a flow that has a start node. -/
structure Itinerary (flow : Flow) (budget : Int) (seed : Memory) (answers : List Http.Answer) (legs : List Leg)
    (r : Result) : Prop where
  first : legs.head?.map (·.node) = if 0 < budget then flow.nodes.find? (·.type == .start) else none
  fresh : ∀ l, legs.head? = some l → l.before = seed
  onward : ∀ i l l', legs[i]? = some l → legs[i + 1]? = some l' → l.fate flow = .goesTo l'.node ∧ l'.before = l.after
  answered : Answered answers legs
  within : (legs.length : Int) ≤ max budget 0
  success : r.outcome = .success ↔ ∃ l, legs.getLast? = some l ∧ l.node.type = .finish
  aborted : r.outcome = .aborted ↔
    (legs = [] ∧ budget ≤ 0) ∨
    ∃ l, legs.getLast? = some l ∧ (l.fate flow = .fails ∨ (l.goesOn flow = true ∧ budget ≤ legs.length))
  stopped : r.outcome = .stopped ↔ ∃ l, legs.getLast? = some l ∧ l.fate flow = .strands

/-! ## Ways in terms of the flow -/

theorem next?_connectionFrom? (flow : Flow) (n : Node) (m : Memory) :
    flow.next? n.id (if n.type = .decision then some (portOf (conditionHolds n m)) else none) =
      connectionFrom? flow n m := by
  unfold Flow.next? connectionFrom?
  congr 1
  funext c
  by_cases ht : n.type = .decision
  · have hne : (n.type != .decision) = false := by rw [ht]; rfl
    rw [if_pos ht, hne]
    rfl
  · have hne : (n.type != .decision) = true := bne_iff_ne.mpr ht
    rw [if_neg ht, hne]
    rfl

/-- The end node does no work that could fail. -/
theorem ends_iff {flow : Flow} {l : Leg} : l.fate flow = .ends ↔ l.node.type = .finish := by
  have hv := visit_cases l.node l.before l.answer
  unfold Leg.fate Leg.visit
  generalize visit l.node l.before l.answer = v at hv
  constructor
  · intro h
    split at h
    · cases h
    · split at h
      · assumption
      · split at h <;> cases h
  · intro ht
    cases hv with
    | scriptFails h | conditionFails h | unanswered h => rw [ht] at h; cases h
    | _ => exact if_pos ht

/-- The run goes the way of its fate. -/
theorem way_fate (flow : Flow) (l : Leg) :
    match l.fate flow with
    | .fails => ∃ e, l.way flow = .ends e ∧ e.outcome = .aborted
    | .ends => ∃ e, l.way flow = .ends e ∧ e.outcome = .success
    | .strands => ∃ e, l.way flow = .ends e ∧ e.outcome = .stopped
    | .goesTo next => l.way flow = .onto next := by
  unfold Leg.fate Leg.way
  cases hr : l.visit.result with
  | error f => exact ⟨.failed l.node f, rfl, rfl⟩
  | ok t =>
    have ht := visit_ok hr
    by_cases hf : l.node.type = .finish
    · have hterm : t.terminal = true := by rw [ht, hf]; rfl
      simp only [if_pos hf, wayFrom, wayOut, if_pos hterm]
      exact ⟨_, rfl, rfl⟩
    · have hterm : ¬ t.terminal = true := by
        rw [ht]
        exact fun h => hf (beq_iff_eq.mp h)
      have hnext : flow.next? l.node.id t.port = connectionFrom? flow l.node l.before := by
        rw [ht]
        exact next?_connectionFrom? flow l.node l.before
      simp only [if_neg hf, wayFrom, wayOut, if_neg hterm, hnext, successor?, Flow.node?]
      cases connectionFrom? flow l.node l.before with
      | none => exact ⟨_, rfl, rfl⟩
      | some c =>
        cases hnode : flow.nodes.find? (·.id == c.target) with
        | none => simp only [Option.bind_some, hnode]; exact ⟨_, rfl, rfl⟩
        | some next => simp only [Option.bind_some, hnode]

theorem way_onto {flow : Flow} {l : Leg} {next : Node} (h : l.way flow = .onto next) : l.fate flow = .goesTo next := by
  have hw := way_fate flow l
  rw [h] at hw
  cases hf : l.fate flow with
  | goesTo next' => simp only [hf] at hw; cases hw; rfl
  | fails | ends | strands => simp only [hf] at hw; obtain ⟨e, he, -⟩ := hw; cases he

theorem leads_goesOn (flow : Flow) (l : Leg) : l.leads flow = l.goesOn flow := by
  have hw := way_fate flow l
  unfold Leg.leads Leg.goesOn
  cases hf : l.fate flow with
  | goesTo next => simp only [hf] at hw; rw [hw]
  | fails | ends | strands => simp only [hf] at hw; obtain ⟨e, he, -⟩ := hw; rw [he]

/-! ## Tours in terms of the flow -/

section

variable {s : Settings} {flow : Flow} {k : Nat} {n : Node} {m : Memory} {as : List Http.Answer} {ls : List Leg}
  {e : Ending}

/-- A tour is empty exactly if its first node is barred; otherwise it begins there. -/
theorem Tour.head (h : Tour s flow k n m as ls e) :
    (ls = [] ∧ s.bar? m.heap k ≠ none) ∨
      (s.bar? m.heap k = none ∧ ∃ l, ls.head? = some l ∧ l.node = n ∧ l.before = m) := by
  cases h with
  | barred hb => exact .inl ⟨rfl, by rw [hb]; intro h; cases h⟩
  | last hb _ => exact .inr ⟨hb, _, rfl, rfl, rfl⟩
  | onward hb _ _ => exact .inr ⟨hb, _, rfl, rfl, rfl⟩

theorem Tour.onward_legs (h : Tour s flow k n m as ls e) : ∀ i l l', ls[i]? = some l → ls[i + 1]? = some l' →
    l.fate flow = .goesTo l'.node ∧ l'.before = l.after := by
  induction h with
  | barred _ => intro i l l' hl _; cases hl
  | last _ _ => intro i l l' _ hl'; cases hl'
  | @onward k n next m as ls e hb hw ht ih =>
    intro i l l' hl hl'
    cases i with
    | succ i => exact ih i l l' hl hl'
    | zero =>
      cases hl
      rcases ht.head with ⟨rfl, -⟩ | ⟨-, l'', hhead, hnode, hbefore⟩
      · cases hl'
      · have heq : l'' = l' := by
          rw [List.head?_eq_getElem?] at hhead
          exact Option.some.inj (hhead.symm.trans hl')
        subst heq
        exact ⟨by rw [hnode]; exact way_onto hw, hbefore⟩

theorem Tour.answered (h : Tour s flow k n m as ls e) : Answered as ls := by
  induction h with
  | barred _ => exact trivial
  | last _ _ => exact ⟨rfl, trivial⟩
  | onward _ _ _ ih => exact ⟨rfl, ih⟩

/-- A tour ends as its last leg does, or at the node that its last leg leads to. -/
theorem Tour.ending (h : Tour s flow k n m as ls e) :
    (ls = [] ∧ ∃ f, e = .barred n f) ∨
    ∃ l, ls.getLast? = some l ∧ (l.way flow = .ends e ∨
      ∃ next f h, l.way flow = .onto next ∧ s.bar? h (k + ls.length) = some f ∧ e = .barred next f) := by
  induction h with
  | barred _ => exact .inl ⟨rfl, _, rfl⟩
  | @last k n m as e _ hw => exact .inr ⟨_, rfl, .inl hw⟩
  | @onward k n next m as ls e hb hw ht ih =>
    right
    rcases ih with ⟨rfl, f, rfl⟩ | ⟨l, hl, hend⟩
    · cases ht with
      | barred hb' => exact ⟨_, rfl, .inr ⟨next, f, _, hw, hb', rfl⟩⟩
    · have hlast : (legAt n m as :: ls).getLast? = some l := by
        rw [List.getLast?_cons, hl]
        rfl
      refine ⟨l, hlast, ?_⟩
      have hlen : k + (legAt n m as :: ls).length = k + 1 + ls.length := by
        rw [List.length_cons]
        omega
      rw [hlen]
      exact hend

end

/-! ## Entries -/

theorem executing_begins {e : Entry} (h : isExecuting e = true) : e.message.toList.take 2 = ['E', 'x'] := by
  obtain ⟨t, -, ht⟩ := List.any_eq_true.mp h
  rw [beq_iff_eq.mp ht, String.toList_append]
  rfl

theorem isExecuting_false {e : Entry} {c d : Char} (hm : e.message.toList.take 2 = [c, d]) (h : (c, d) ≠ ('E', 'x')) :
    isExecuting e = false := by
  rw [Bool.eq_false_iff]
  intro he
  rw [executing_begins he] at hm
  cases hm
  exact h rfl

theorem executing_isExecuting (l : Leg) : isExecuting l.executing = true := by
  refine List.any_eq_true.mpr ⟨l.node.type, ?_, ?_⟩
  · cases l.node.type <;> decide
  · exact beq_iff_eq.mpr rfl

theorem begins_append {a b : String} {c d : Char} (h : a.toList.take 2 = [c, d]) : (a ++ b).toList.take 2 = [c, d] := by
  have hlen : 2 ≤ a.toList.length := by
    have := congrArg List.length h
    simp only [List.length_take, List.length_cons, List.length_nil] at this
    omega
  rw [String.toList_append, List.take_append_of_le_length hlen, h]

theorem told_logs (n : Node) (notices : List Log.Notice) : told n (notices.map .log) = [] := by
  induction notices with
  | nil => rfl
  | cons _ _ ih => exact ih

/-- The messages of handlers do not tell that a node is executing. -/
theorem told_visit (n : Node) (m : Memory) (a : Http.Answer) :
    ∀ e ∈ told n (visit n m a).effects, isExecuting e = false := by
  have hdecided : ∀ b, ∀ e ∈ told n [decidedEffect b], isExecuting e = false := by
    intro b e he
    rw [List.mem_singleton.mp he]
    exact isExecuting_false (c := 'C') (d := 'o') (begins_append rfl) (by decide)
  have hcall : ∀ call, ∀ e ∈ told n (callEffects n call), isExecuting e = false := by
    intro call e he
    rw [List.mem_singleton.mp he]
    exact isExecuting_false (c := 'C') (d := 'a') (begins_append (begins_append (begins_append rfl))) (by decide)
  have hanswered : ∀ e ∈ told n [answeredEffect], isExecuting e = false := by
    intro e he
    rw [List.mem_singleton.mp he]
    have hm : "API Response received".toList.take 2 = ['A', 'P'] := rfl
    exact isExecuting_false hm (by decide)
  have hv := visit_cases n m a
  generalize visit n m a = v at hv
  cases hv with
  | undecided => exact hdecided false
  | decided => exact hdecided _
  | answered =>
    intro e he
    rw [told_append, told_append, told_logs, List.nil_append] at he
    rcases List.mem_append.mp he with he | he
    · exact hcall _ e he
    · exact hanswered e he
  | unanswered =>
    intro e he
    rw [told_append, told_logs, List.append_nil] at he
    exact hcall _ e he
  | _ => intro e he; cases he

/-- The first letters of what an ending tells. -/
def Ending.initials : Ending → List Char
  | .done _ | .unconnected _ none => ['F', 'l']
  | .failed .. | .barred .. => ['E', 'r']
  | .unconnected _ (some _) => ['N', 'o']
  | .dangling _ => ['C', 'o']

theorem ending_begins (e : Ending) : e.entry.message.toList.take 2 = e.initials := by
  cases e with
  | done n =>
    have hm : "Flow finished successfully".toList.take 2 = ['F', 'l'] := rfl
    exact hm
  | failed n f | barred n f =>
    have hm : ("Error: " ++ f.message).toList.take 2 = ['E', 'r'] := begins_append rfl
    exact hm
  | unconnected n port =>
    cases port with
    | none =>
      have hm : "Flow stopped (no more connections)".toList.take 2 = ['F', 'l'] := rfl
      exact hm
    | some port =>
      have hm : ("No connection for port \"" ++ port ++ "\"").toList.take 2 = ['N', 'o'] :=
        begins_append (begins_append rfl)
      exact hm
  | dangling c =>
    have hm : (missingMessage c).toList.take 2 = ['C', 'o'] :=
      begins_append (begins_append (begins_append (begins_append rfl)))
    exact hm

theorem ending_entry (e : Ending) : isExecuting e.entry = false := by
  rw [Bool.eq_false_iff]
  intro he
  have hbegins := (ending_begins e).symm.trans (executing_begins he)
  cases e with
  | done | failed | barred | dangling => cases hbegins
  | unconnected n port => cases port <;> cases hbegins

theorem entries_executing (ls : List Leg) : (ls.flatMap Leg.entries).filter isExecuting = ls.map Leg.executing := by
  induction ls with
  | nil => rfl
  | cons l ls ih =>
    have htold : (told l.node l.visit.effects).filter isExecuting = [] :=
      List.filter_eq_nil_iff.mpr fun e he => by rw [told_visit l.node l.before l.answer e he]; decide
    rw [List.flatMap_cons, List.filter_append, ih, Leg.entries, List.filter_cons_of_pos (executing_isExecuting l),
      htold]
    rfl

theorem result_executing (flow : Flow) (tag : String) (ls : List Leg) (e : Ending) :
    (resultOf flow tag ls e).entries.filter isExecuting = ls.map Leg.executing := by
  have hstart : isExecuting startingEntry = false := isExecuting_false (c := 'S') (d := 't') rfl (by decide)
  have hend : ¬ isExecuting e.entry = true := by rw [ending_entry e]; decide
  rw [resultOf, List.filter_cons_of_neg (by rw [hstart]; decide), List.filter_append, entries_executing,
    List.filter_cons_of_neg hend, List.filter_nil, List.append_nil]

/-! ## Runs -/

theorem bar?_some {s : Settings} {budget : Int} (hs : s.maxSteps = .scalar (.int budget)) {h : Heap} {k : Nat}
    {f : NodeFault} (hb : s.bar? h k = some f) : budget ≤ k := by
  have hbar := bar?_none hs (h := h) (k := k)
  rw [hb] at hbar
  have hnot : ¬ (k : Int) < budget := fun hlt => by cases hbar.mpr hlt
  omega

section

variable {s : Settings} {flow : Flow} {n : Node} {m : Memory} {as : List Http.Answer} {ls : List Leg} {e : Ending}
  {budget : Int}

/-- The last leg tells the outcome. -/
theorem Tour.outcome {l : Leg} (h : Tour s flow 0 n m as ls e) (hs : s.maxSteps = .scalar (.int budget))
    (hl : ls.getLast? = some l) :
    match l.fate flow with
    | .fails => e.outcome = .aborted
    | .ends => e.outcome = .success
    | .strands => e.outcome = .stopped
    | .goesTo _ => e.outcome = .aborted ∧ budget ≤ ls.length := by
  have hway := way_fate flow l
  rcases h.ending with ⟨rfl, -⟩ | ⟨l', hl', hend⟩
  · cases hl
  · rw [hl] at hl'
    cases hl'
    rcases hend with hend | ⟨next, f, heap, hto, hbar, rfl⟩
    · rw [hend] at hway
      cases hf : l.fate flow with
      | goesTo next => simp only [hf] at hway; cases hway
      | fails | ends | strands =>
        simp only [hf] at hway
        obtain ⟨e', he, ho⟩ := hway
        cases he
        exact ho
    · rw [way_onto hto]
      rw [Nat.zero_add] at hbar
      exact ⟨rfl, bar?_some hs hbar⟩

/-- A tour from the start node within a whole budget is the walk that its flow describes. -/
theorem Tour.itinerary {r : Result} (h : Tour s flow 0 n m as ls e) (hn : flow.startNode? = some n)
    (hs : s.maxSteps = .scalar (.int budget)) (hl : ls.length ≤ budget.toNat) (hr : r.outcome = e.outcome) :
    Itinerary flow budget m as ls r := by
  have hwithin : (ls.length : Int) ≤ max budget 0 := by omega
  rcases h.head with ⟨rfl, hb⟩ | ⟨hb, l, hhead, rfl, rfl⟩
  · obtain ⟨f, hf⟩ := Option.ne_none_iff_exists'.mp hb
    have hzero : budget ≤ 0 := bar?_some hs hf
    have houtcome : r.outcome = .aborted := by
      rcases h.ending with ⟨-, f, rfl⟩ | ⟨l, hlast, -⟩
      · exact hr
      · cases hlast
    refine ⟨?_, (by intro l h; cases h), h.onward_legs, trivial, hwithin, ?_, ?_, ?_⟩
    · rw [if_neg (by omega)]
      rfl
    · simp [houtcome]
    · simp [houtcome, hzero]
    · simp [houtcome]
  · have hpos : 0 < budget := (bar?_none hs).mp hb
    have hne : ls ≠ [] := by rintro rfl; cases hhead
    obtain ⟨l', hlast⟩ : ∃ l', ls.getLast? = some l' := ⟨_, List.getLast?_eq_some_getLast hne⟩
    have houtcome := h.outcome hs hlast
    rw [← hr] at houtcome
    refine ⟨?_, ?_, h.onward_legs, h.answered, hwithin, ?_, ?_, ?_⟩
    · rw [if_pos hpos, ← show flow.startNode? = flow.nodes.find? (·.type == .start) from rfl, hn, hhead]
      rfl
    · intro l' hl'
      rw [hhead] at hl'
      cases hl'
      rfl
    all_goals
      have hends : l'.fate flow = .ends ↔ l'.node.type = .finish := ends_iff
      simp only [hlast, Leg.goesOn]
      cases hf : l'.fate flow <;> simp_all

end

theorem pausesOf_some (seconds : Float) (flow : Flow) (ls : List Leg) :
    pausesOf (some seconds) flow ls = List.replicate (ls.countP (Leg.goesOn flow)) seconds := by
  induction ls with
  | nil => rfl
  | cons l ls ih =>
    rw [pausesOf, List.flatMap_cons, ← pausesOf, ih, leads_goesOn]
    by_cases h : l.goesOn flow = true
    · rw [if_pos h, List.countP_cons_of_pos h, List.replicate_succ]
      rfl
    · rw [if_neg h, List.countP_cons_of_neg h]
      rfl

theorem pausesOf_none (flow : Flow) (ls : List Leg) : pausesOf none flow ls = [] := by
  simp [pausesOf]

/-- Every run is the walk that its flow describes, and pauses where a connection is followed. -/
theorem run_is_the_walk {x : Executor} {budget : Int} {p : Scalar} {seconds : Float} (hx : x.locked = false)
    (hs : x.settings.maxSteps = .scalar (.int budget)) (hp : x.settings.pacing = .scalar p) (hn : p.isNumber = true)
    (hd : Settings.positive p = true → Settings.seconds p = .ok seconds) (attempt : Option Attempt)
    (caller : Log.Scope) (tag : String) (flow : Flow) (seed : Env) (answers : List Http.Answer) :
    ∃ r legs v,
      (runToEnd attempt caller tag flow seed).run (World.start x answers) = (some (.finished r), v) ∧
        r.entries.filter isExecuting = legs.map Leg.executing ∧
        r.steps = legs.length ∧
        v.calls = legs.filterMap (·.visit.call) ∧
        v.pauses = (if Settings.positive p then List.replicate (legs.countP (Leg.goesOn flow)) seconds else []) ∧
        (match flow.nodes.find? (·.type == .start) with
          | none => legs = [] ∧ r.outcome = .aborted
          | some _ => Itinerary flow budget (contextOf seed x.heap) answers legs r) := by
  have hpace := paced_number hp hn hd
  cases hstart : flow.startNode? with
  | none =>
    obtain ⟨y, hrun, -⟩ := run_stranded (u := World.start x answers) attempt caller tag seed hx hstart
    have hstranded : isExecuting strandedEntry = false := by
      have hm : "No Start node found in flow".toList.take 2 = ['N', 'o'] := rfl
      exact isExecuting_false hm (by decide)
    refine ⟨_, [], _, hrun, ?_, rfl, rfl, by simp [World.start], ?_⟩
    · exact List.filter_cons_of_neg (by rw [hstranded]; decide)
    · rw [← show flow.startNode? = flow.nodes.find? (·.type == .start) from rfl, hstart]
      exact ⟨rfl, rfl⟩
  | some n =>
    obtain ⟨ls, e, htour, hlen⟩ :
        ∃ ls e, Tour x.settings flow 0 n (contextOf seed x.heap) answers ls e ∧ ls.length ≤ budget.toNat - 0 :=
      tour_exists hs 0 n (contextOf seed x.heap) answers
    obtain ⟨v, hrun, htoured, -⟩ :=
      run_tour (u := World.start x answers) attempt caller tag seed hx hstart hs hpace htour hlen
    refine ⟨_, ls, v, hrun, result_executing flow tag ls e, rfl, htoured.calls, ?_, ?_⟩
    · rw [htoured.pauses]
      by_cases hpos : Settings.positive p = true
      · rw [if_pos hpos, if_pos hpos, pausesOf_some]
        rfl
      · rw [if_neg hpos, if_neg hpos, pausesOf_none]
        rfl
    · rw [← show flow.startNode? = flow.nodes.find? (·.type == .start) from rfl, hstart]
      exact htour.itinerary hstart hs hlen rfl

/-- A paced run from a start node to an end node. -/
theorem run_of_two_nodes :
    let first : Node := ⟨"s", .start, .origin, ⟨"Start", none, none, none, none⟩⟩
    let last : Node := ⟨"e", .finish, .origin, ⟨"End", none, none, none, none⟩⟩
    let flow : Flow := ⟨"f", "Two", none, [first, last], [⟨"c", "s", "e", none⟩]⟩
    let x : Executor := .create ⟨.scalar (.float 800), .scalar (.int 10)⟩ ⟨0, []⟩ .empty
    ∃ r legs v,
      (runToEnd none .none "t" flow []).run (World.start x []) = (some (.finished r), v) ∧
        r.entries.filter isExecuting = legs.map Leg.executing ∧
        r.steps = legs.length ∧
        v.calls = legs.filterMap (·.visit.call) ∧
        v.pauses = (if Settings.positive (.float 800) then List.replicate (legs.countP (Leg.goesOn flow)) (800 / 1000)
          else []) ∧
        Itinerary flow 10 (contextOf [] x.heap) [] legs r :=
  run_is_the_walk rfl rfl rfl rfl (fun _ => rfl) none .none "t" _ [] []

end StepFlow.Run
