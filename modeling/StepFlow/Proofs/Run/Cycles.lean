/-
  StepFlow.Proofs.Run.Cycles — the step budget is exact about cycles.

  A run goes along the connections of its flow (`Flow.Leads`). It arrives at the nodes that it
  executes, and last at the one that its budget bars (`Request.arrivals`). If it may execute as
  many nodes as the flow has and that is not enough, it has come to one of them twice; so it
  has gone round a cycle.

  The other way round, coming to a node again is no loop where scripts or answers may change the
  variables that conditions ask for. In a flow of still nodes they cannot: each stage decides
  the next one, so the run goes round and round until its budget is spent.

  Proved, for every flow and every budget that is not less than the number of its nodes:
  (1) `exhausts_revisits`: a run that spends its budget has arrived at some node twice.
  (2) `exhausts_cycle`: so its flow has a cycle which can be reached from the start node.
  (3) `revisit_exhausts`: in a flow of still nodes, a run that arrives at some node twice spends
      its budget.
-/

import Mathlib.Data.List.Duplicate
import Mathlib.Logic.Relation
import StepFlow.Proofs.Run.Cleanup
import StepFlow.Proofs.Run.Stillness

namespace StepFlow

open Relation (ReflTransGen TransGen)

/-- A connection of the flow leads from the one of its nodes to the other one. -/
structure Flow.Leads (f : Flow) (a b : Node) : Prop where
  source : a ∈ f.nodes
  target : b ∈ f.nodes
  connection : ∃ c ∈ f.connections, c.source = a.id ∧ c.target = b.id

namespace Run

open Script (Memory)

/-! ## The trail of a run -/

theorem wayOut_leads {flow : Flow} {n next : Node} {t : Transition} (hn : n ∈ flow.nodes)
    (h : wayOut flow n t = .onto next) : flow.Leads n next := by
  obtain ⟨c, hc, hnext⟩ := wayOut_onto h
  have hsource := List.find?_some hc
  exact ⟨hn, List.mem_of_find?_eq_some hnext, c, List.mem_of_find?_eq_some hc,
    eq_of_beq (Bool.and_eq_true_iff.mp hsource).1, (node?_id hnext).symm⟩

theorem way_leads {flow : Flow} {l : Leg} {next : Node} (hl : l.node ∈ flow.nodes) (h : l.way flow = .onto next) :
    flow.Leads l.node next := by
  obtain ⟨t, hr⟩ := onto_ok h
  rw [Leg.way, hr] at h
  exact wayOut_leads hl h

/-- The visits of a run go along the connections of its flow: from each node to all later ones. -/
theorem Through.trail {flow : Flow} {start n : Node} {seed m : Memory} {ls : List Leg} {es : List Entry}
    (h : Through flow start seed ls es n m) (hstart : start ∈ flow.nodes) :
    (ls.map (·.node) ++ [n]).Pairwise (TransGen flow.Leads) ∧
      ∀ a ∈ ls.map (·.node) ++ [n], a ∈ flow.nodes ∧ ReflTransGen flow.Leads start a := by
  induction h with
  | here =>
    refine ⟨List.pairwise_singleton _ _, fun a ha => ?_⟩
    rw [List.mem_singleton.mp ha]
    exact ⟨hstart, .refl⟩
  | @on ls es l next _ hway ih =>
    obtain ⟨hpairs, hreached⟩ := ih
    obtain ⟨hlast, hfrom⟩ := hreached l.node (List.mem_append_right _ (List.mem_singleton_self _))
    have hleads := way_leads hlast hway
    have hnext : ∀ a ∈ ls.map (·.node) ++ [l.node], TransGen flow.Leads a next := by
      intro a ha
      rcases List.mem_append.mp ha with ha | ha
      · exact ((List.pairwise_append.mp hpairs).2.2 a ha l.node (List.mem_singleton_self _)).tail hleads
      · rw [List.mem_singleton.mp ha]
        exact .single hleads
    rw [List.map_append, List.map_singleton]
    refine ⟨List.pairwise_append.mpr ⟨hpairs, List.pairwise_singleton _ _, fun a ha b hb => ?_⟩, fun a ha => ?_⟩
    · rw [List.mem_singleton.mp hb]
      exact hnext a ha
    · rcases List.mem_append.mp ha with ha | ha
      · exact hreached a ha
      · rw [List.mem_singleton.mp ha]
        exact ⟨hleads.target, hfrom.tail hleads⟩

/-! ## Where a run arrives -/

/-- The node that the run arrives at in this turn. -/
def Progress.arriving? : Progress → Option Node
  | .going (.arriving n) => some n
  | .going _ | .ended _ => none

/-- The nodes that a run has arrived at up to a turn: those that it executes, and the one that
    it is about to execute. -/
def Request.arrivals (q : Request) (x : Executor) (s : Surroundings) (k : Nat) : List Node :=
  (List.range (k + 1)).filterMap fun j => (q.course x s j).1.1.arriving?

/-- The node that the run executes, or is about to. -/
def Stage.current : Stage → List Node
  | .arriving n | .calling n _ => [n]
  | .pausing .. => []

theorem Turns.arrivals {w : Walk} {x : Executor} {stage stage' : Stage} {s : Surroundings} {k : Nat} {e : Event}
    {r : Standing} (ht : Turns w x stage e r) (hr : r.1.1 = .going stage') :
    stage.current ++ r.1.1.arriving?.toList =
      (Standing.leg? ((.going stage, w), x) s k).toList.map (·.node) ++ stage'.current := by
  have honward : ∀ {v : Walk} {y : Executor} {way : Way}, Goes v y r way → r.1.1.arriving?.toList = stage'.current := by
    intro v y way hg
    cases hg with
    | ends hc | raises hp hc => cases hr
    | @onto pace next z hp hk =>
      cases pace with
      | none | some => cases hr; rfl
  cases ht with
  | barred _ hg =>
    cases hg with
    | ends hc => cases hr
  | calls hb hc hk =>
    cases hr
    rw [leg?_calls hb hc]
    rfl
  | visits hb hc hg =>
    rw [leg?_visits hb hc, honward hg]
    rfl
  | resumes hg =>
    rw [honward hg]
    rfl
  | wakes =>
    cases hr
    rfl
  | disturbed _ => cases hr

section

variable {q : Request} {x : Executor} {s : Surroundings} {budget : Int} {k : Nat} {n : Node}

theorem arrivals_next (k : Nat) :
    q.arrivals x s (k + 1) = q.arrivals x s k ++ (q.course x s (k + 1)).1.1.arriving?.toList := by
  unfold Request.arrivals
  rw [List.range_succ, List.filterMap_append]
  cases hf : (q.course x s (k + 1)).1.1.arriving? <;> simp [hf]

/-- A run has arrived at the nodes that it has visited, and at the one where it is. -/
theorem arrivals_legs {stage : Stage} (hk : (q.course x s k).1.1 = .going stage) :
    q.arrivals x s k = (q.legs x s k).map (·.node) ++ stage.current := by
  induction k generalizing stage with
  | zero =>
    rcases begun_cases q x with ⟨-, y, hy, -⟩ | ⟨n, y, -, hy, -⟩
    · rw [Request.course, hy] at hk
      cases hk
    · rw [Request.course, hy] at hk
      cases hk
      show [(q.begun x).1.1].filterMap Progress.arriving? = [n]
      rw [hy]
      rfl
  | succ k ih =>
    cases hj : (q.course x s k).1.1 with
    | ended e =>
      rw [course_ended q s hj, hj] at hk
      cases hk
    | going before =>
      have harrivals := (course_turns hj).arrivals (s := s) (k := k) hk
      rw [arrivals_next, ih hj, legs_going hj, List.map_append, List.append_assoc, List.append_assoc, harrivals]

theorem arriving?_some {p : Progress} : p.arriving? = some n ↔ p = .going (.arriving n) := by
  constructor
  · intro h
    cases p with
    | ended e => cases h
    | going stage =>
      cases stage with
      | arriving m => cases h; rfl
      | calling | pausing => cases h
  · rintro rfl
    rfl

theorem mem_arrivals : n ∈ q.arrivals x s k ↔ ∃ j ≤ k, (q.course x s j).1.1 = .going (.arriving n) := by
  simp only [Request.arrivals, List.mem_filterMap, List.mem_range, arriving?_some, Nat.lt_succ_iff]

/-! ## Cycles -/

/-- A run that may execute as many nodes as there are, and is out of steps, has come to one of them twice. -/
theorem exhausts_revisits (hs : x.settings.maxSteps = .scalar (.int budget)) (hb : (q.flow.nodes.length : Int) ≤ budget)
    (h : q.Exhausts x s budget k n) : ¬ (q.arrivals x s k).Nodup := by
  intro hnodup
  have hinside : q.arrivals x s k ⊆ q.flow.nodes := fun a ha => by
    obtain ⟨j, -, hj⟩ := mem_arrivals.mp ha
    exact ((course_sound q x s j).place _ hj).1
  have hle : (q.arrivals x s k).length ≤ q.flow.nodes.length := (hnodup.subperm hinside).length_le
  obtain ⟨hspent, hlength⟩ := exhausts_spent hs h
  rw [arrivals_legs h.arrives, List.length_append, List.length_map, hlength] at hle
  simp only [Stage.current, List.length_singleton] at hle
  omega

theorem exhausts_cycle (hs : x.settings.maxSteps = .scalar (.int budget)) (hb : (q.flow.nodes.length : Int) ≤ budget)
    (h : q.Exhausts x s budget k n) : ∃ start m, q.flow.startNode? = some start ∧
      ReflTransGen q.flow.Leads start m ∧ TransGen q.flow.Leads m m := by
  obtain ⟨start, es, m, hstart, hthrough, -⟩ := arriving_through h.arrives
  obtain ⟨hpairs, hreached⟩ := hthrough.trail (startNode_enterable hstart).1
  have hrevisits := exhausts_revisits hs hb h
  rw [arrivals_legs h.arrives] at hrevisits
  obtain ⟨twice, htwice⟩ := List.exists_duplicate_iff_not_nodup.mpr hrevisits
  have hround := hpairs.sublist (List.duplicate_iff_sublist.mp htwice)
  exact ⟨start, twice, hstart, (hreached twice htwice.mem).2, List.rel_of_pairwise_cons hround List.mem_cons_self⟩

/-! ## Round and round -/

theorem arrives_twice (h : ¬ (q.arrivals x s k).Nodup) : ∃ i j n, i < j ∧
    (q.course x s i).1.1 = .going (.arriving n) ∧ (q.course x s j).1.1 = .going (.arriving n) := by
  by_contra hnever
  refine h (List.nodup_range.filterMap fun i j n hi hj => ?_)
  have hi := arriving?_some.mp hi
  have hj := arriving?_some.mp hj
  rcases Nat.lt_trichotomy i j with hij | hij | hij
  · exact absurd ⟨i, j, n, hij, hi, hj⟩ hnever
  · exact hij
  · exact absurd ⟨j, i, n, hij, hj, hi⟩ hnever

/-- Where still nodes lead a run to one of them again, it goes round until its budget is spent. -/
theorem revisit_exhausts (hs : x.settings.maxSteps = .scalar (.int budget)) (hq : ∀ n ∈ q.flow.nodes, n.Still)
    (hm : Memory.Closed ⟨q.seed, x.heap⟩)
    (hp : ∀ k n seconds, (q.course x s k).1.1 = .going (.pausing n seconds) → s.pause k = .ok ())
    (h : ¬ (q.arrivals x s k).Nodup) : ∃ k n, q.Exhausts x s budget k n := by
  by_contra hnever
  have hnone : ∀ k n, ¬ q.Exhausts x s budget k n := fun k n hx => hnever ⟨k, n, hx⟩
  obtain ⟨i, j, n, hij, hi, hj⟩ := arrives_twice h
  have hround : ∀ d, (q.course x s (i + d)).1.1.stage? = (q.course x s (j + d)).1.1.stage? := by
    intro d
    induction d with
    | zero => rw [Nat.add_zero, Nat.add_zero, hi, hj]
    | succ d ih =>
      rw [← Nat.add_assoc, ← Nat.add_assoc, course_stage? hs hq (contextOf_closed hm) (hnone _) (hp _),
        course_stage? hs hq (contextOf_closed hm) (hnone _) (hp _), ih]
  -- a first turn after which the run has ended would have an earlier one before it
  have hgoes : ∀ k e, (q.course x s k).1.1 ≠ .ended e := by
    intro k
    induction k using Nat.strong_induction_on with
    | _ k ih =>
      intro e he
      by_cases hk : k ≤ j
      · rw [course_over he hk, he] at hj
        cases hj
      · have hbefore := hround (k - j)
        rw [Nat.add_sub_cancel' (Nat.le_of_not_le hk), he] at hbefore
        cases hend : (q.course x s (i + (k - j))).1.1 with
        | ended e' => exact ih _ (by omega) e' hend
        | going stage =>
          rw [hend] at hbefore
          cases hbefore
  obtain ⟨e, he⟩ := course_ends (q := q) (s := s) hs
  exact hgoes _ e he

end

/-! ## Runs -/

/-- What a budget tells of the cycles of a flow. -/
structure ExactAboutCycles (q : Request) (x : Executor) (s : Surroundings) (budget : Int) : Prop where
  /-- A run that is out of steps ends in that turn, and says so. -/
  ends : ∀ k n, q.Exhausts x s budget k n → ∃ r, (q.course x s (k + 1)).1.1 = .ended (.finished r) ∧
    r.outcome = .aborted ∧ r.entries.getLast? = some (q.budgetEntry x s k n)
  /-- Then its flow has a cycle, which can be reached from the node that it started at. -/
  cycle : ∀ k n, q.Exhausts x s budget k n → ∃ start m, q.flow.startNode? = some start ∧
    ReflTransGen q.flow.Leads start m ∧ TransGen q.flow.Leads m m
  /-- Where no script runs and no call is made, and unless a pause raises, a run gets out of
      steps exactly if it arrives at some node twice. -/
  revisits : (∀ n ∈ q.flow.nodes, n.Still) → Memory.Closed ⟨q.seed, x.heap⟩ →
    (∀ k n seconds, (q.course x s k).1.1 = .going (.pausing n seconds) → s.pause k = .ok ()) →
      ((∃ k n, q.Exhausts x s budget k n) ↔ ∃ k, ¬ (q.arrivals x s k).Nodup)

/-- A budget of as many steps as there are nodes, or more, is exact about cycles. -/
theorem budget_is_exact_about_cycles {x : Executor} {budget : Int} (hs : x.settings.maxSteps = .scalar (.int budget))
    (q : Request) (hb : (q.flow.nodes.length : Int) ≤ budget) (s : Surroundings) : ExactAboutCycles q x s budget := by
  refine ⟨fun k n h => ?_, fun k n h => exhausts_cycle hs hb h, fun hq hm hp => ⟨?_, ?_⟩⟩
  · obtain ⟨⟨r, hr, houtcome, -, hentries⟩, -⟩ := exhausts_ends hs h
    exact ⟨r, hr, houtcome, by rw [hentries, List.getLast?_concat]⟩
  · rintro ⟨k, n, h⟩
    exact ⟨k, exhausts_revisits hs hb h⟩
  · rintro ⟨k, h⟩
    exact revisit_exhausts hs hq hm hp h

/-- A decision that makes a list each time it is asked, of a list that holds itself. -/
theorem cycle_of_a_decision :
    let start : Node := ⟨"s", .start, .origin, ⟨"Start", none, none, none, none⟩⟩
    let again : Node := ⟨"d", .decision, .origin, ⟨"Again", none, none, some "xs + [1]", none⟩⟩
    let flow : Flow := ⟨"f", "Loop", none, [start, again], [⟨"c", "s", "d", none⟩, ⟨"l", "d", "d", some "true"⟩]⟩
    let q : Request := ⟨.none, "t", flow, [("xs", .ref 0)]⟩
    let x : Executor := .create ⟨.scalar (.int 0), .scalar (.int 2)⟩ ⟨0, []⟩ ⟨#[.list [.ref 0, .int 1]], 1⟩
    let s : Surroundings := ⟨fun _ => .failure (.network "ConnectTimeout" "slow"), fun _ => .ok ()⟩
    ExactAboutCycles q x s 2 ∧ (∀ n ∈ flow.nodes, n.Still) ∧ Memory.Closed ⟨q.seed, x.heap⟩ ∧
      q.Exhausts x s 2 2 again ∧ ∃ k, ¬ (q.arrivals x s k).Nodup := by
  intro start again flow q x s
  have hexact : ExactAboutCycles q x s 2 := budget_is_exact_about_cycles rfl q (by decide) s
  have hstill : ∀ n ∈ flow.nodes, n.Still :=
    List.forall_mem_cons.mpr ⟨⟨nofun, nofun⟩, List.forall_mem_singleton.mpr ⟨nofun, nofun⟩⟩
  have hclosed : Memory.Closed ⟨q.seed, x.heap⟩ := by
    refine ⟨fun name v hv => ?_, fun r xs hr v hv => ?_, fun r es hr => ?_⟩
    · unfold Env.get? at hv
      rw [List.lookup_cons] at hv
      split at hv
      · cases hv
        exact Nat.one_pos
      · cases hv
    · cases r with
      | zero =>
        cases hr
        rcases List.mem_pair.mp hv with rfl | rfl
        · exact Nat.one_pos
        · exact trivial
      | succ r =>
        cases hr
        cases hv
    · cases r <;> cases hr
  have hparse : Script.parseExpression "xs + [1]" = .ok (.binary .add (.name "xs") (.list [.literal (.int 1)])) := by
    cbv
  have hrun : (Handler.run again ⟨(q.course x s 1).1.2.env, (q.course x s 1).2.heap⟩).reached =
      .done ⟨some "true", false⟩ := by
    have hcondition : nonblank? again.data.condition = some "xs + [1]" := rfl
    show (Handler.decision again _).reached = _
    simp only [Handler.decision, hcondition, Script.evaluate, hparse]
    rfl
  have hexhausts : q.Exhausts x s 2 2 again := by
    have hturns : Turns _ _ (.arriving again) .step (q.course x s 2) := course_turns (k := 1) rfl
    generalize hr : q.course x s 2 = r at hturns
    cases hturns with
    | barred hb => cases hb
    | calls hb hc =>
      rw [hrun] at hc
      cases hc
    | visits hb hc hg =>
      rw [hrun] at hg
      have hg : Goes _ _ r (.onto again) := hg
      cases hg with
      | onto hp hk =>
        cases hp
        exact ⟨by rw [hr]; rfl, by rw [hr]; exact Int.le_refl 2⟩
      | raises hp hc => cases hp
  exact ⟨hexact, hstill, hclosed, hexhausts,
    (hexact.revisits hstill hclosed fun _ _ _ _ => rfl).mp ⟨2, again, hexhausts⟩⟩

end Run

end StepFlow
