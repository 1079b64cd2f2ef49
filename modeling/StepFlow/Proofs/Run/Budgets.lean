/-
  StepFlow.Proofs.Run.Budgets — raising the step budget only extends a run.

  The budget is looked at when a run arrives at a node, before anything else is done there. So
  two runs that differ in their budgets are abreast until one of them is barred from a node
  (`Request.Exhausts`), and that one has told nothing of the node but that it is barred.

  Proved, for every flow, variables, surroundings and whole numbers as budgets:
  (1) `course_within`: no run makes more steps than its budget allows.
  (2) `exhausts_ends`: a run that is out of steps ends in that turn, without another visit.
  (3) `raising_the_budget_extends`: with a larger budget a run that has never been out of steps
      is the same; one that has been goes on from there.
-/

import StepFlow.Proofs.Run.Lockstep
import StepFlow.Proofs.Run.Logbook

namespace StepFlow.Run

/-- The executor with a whole number as budget. -/
def Executor.budgeted (x : Executor) (budget : Int) : Executor :=
  { x with settings := { x.settings with maxSteps := .scalar (.int budget) } }

/-- After that many turns the run arrives at the node, and has spent its budget. -/
structure Request.Exhausts (q : Request) (x : Executor) (s : Surroundings) (budget : Int) (k : Nat) (n : Node) :
    Prop where
  arrives : (q.course x s k).1.1 = .going (.arriving n)
  spent : budget ≤ (q.course x s k).1.2.steps

/-! ## Steps -/

theorem Goes.steps {w : Walk} {x : Executor} {r : Standing} {way : Way} (h : Goes w x r way) :
    r.1.2.steps = w.steps := by
  cases h <;> rfl

/-- A turn makes a step only where the budget allows one. -/
theorem Turns.steps {w : Walk} {x : Executor} {stage : Stage} {e : Event} {r : Standing} (h : Turns w x stage e r) :
    r.1.2.steps = w.steps ∨ x.settings.bar? x.heap w.steps = none ∧ r.1.2.steps = w.steps + 1 := by
  cases h with
  | barred hb hg => exact .inl hg.steps
  | calls hb hr hk => exact .inr ⟨hb, rfl⟩
  | visits hb hr hg => exact .inr ⟨hb, hg.steps⟩
  | resumes hg => exact .inl hg.steps
  | wakes | disturbed => exact .inl rfl

theorem begun_steps (q : Request) (x : Executor) : (q.begun x).1.2.steps = 0 := by
  rcases begun_cases q x with ⟨-, y, hy, -⟩ | ⟨n, y, -, hy, -⟩
  · rw [hy]
    rfl
  · rw [hy]
    rfl

section

variable {q : Request} {x : Executor} {s : Surroundings} {budget : Int}

theorem course_within (hs : x.settings.maxSteps = .scalar (.int budget)) (k : Nat) :
    (q.course x s k).1.2.steps ≤ budget.toNat := by
  induction k with
  | zero =>
    rw [Request.course, begun_steps]
    exact Nat.zero_le _
  | succ k ih =>
    cases hk : (q.course x s k).1.1 with
    | ended e =>
      rw [course_ended q s hk]
      exact ih
    | going stage =>
      rcases (course_turns hk).steps with hsteps | ⟨hb, hsteps⟩
      · rw [hsteps]
        exact ih
      · have hsettings := (course_sound q x s k).settings
        have hlt := (bar?_none (hsettings.symm ▸ hs)).mp hb
        omega

/-! ## The end of a budget -/

theorem bar?_spent {st : Settings} (hs : st.maxSteps = .scalar (.int budget)) (h : Heap) {steps : Nat}
    (hk : budget ≤ steps) : st.bar? h steps = some (st.budgetFault h) := by
  unfold Settings.bar?
  rw [exhausted_int hs, decide_eq_true hk]

variable {k : Nat} {n : Node}

/-- What is told last of a run that has spent its budget. -/
def Request.budgetEntry (q : Request) (x : Executor) (s : Surroundings) (k : Nat) (n : Node) : Entry :=
  (Ending.barred n (x.settings.budgetFault (q.course x s k).2.heap)).entry

/-- A run that is out of steps ends in that turn, and tells nothing of the node but that it is barred. -/
theorem exhausts_ends (hs : x.settings.maxSteps = .scalar (.int budget)) (h : q.Exhausts x s budget k n) :
    (∃ r, (q.course x s (k + 1)).1.1 = .ended (.finished r) ∧ r.outcome = .aborted ∧
      r.steps = (q.course x s k).1.2.steps ∧ r.entries = (q.course x s k).1.2.entries ++ [q.budgetEntry x s k n]) ∧
      q.legs x s (k + 1) = q.legs x s k := by
  have hsettings := (course_sound q x s k).settings
  have hbar := bar?_spent (hsettings.symm ▸ hs) (q.course x s k).2.heap h.spent
  constructor
  · have hturns : Turns _ _ (.arriving n) .step (q.course x s (k + 1)) := course_turns h.arrives
    unfold Request.budgetEntry
    rw [← hsettings]
    generalize q.course x s (k + 1) = r at hturns ⊢
    cases hturns with
    | barred hb hg =>
      rw [hbar] at hb
      cases hb
      cases hg with
      | ends hc => exact ⟨_, rfl, rfl, rfl, rfl⟩
    | calls hb | visits hb =>
      rw [hbar] at hb
      cases hb
  · rw [legs_going h.arrives, leg?_barred hbar, Option.toList_none, List.append_nil]

/-- Only a run with a start node goes on after its first steps. -/
theorem going_starts {stage : Stage} (h : (q.course x s k).1.1 = .going stage) : ∃ m, q.flow.startNode? = some m := by
  cases hn : q.flow.startNode? with
  | some m => exact ⟨m, rfl⟩
  | none =>
    rw [(course_stranded (x := x) (s := s) hn k).1] at h
    rcases begun_cases q x with ⟨-, y, hy, -⟩ | ⟨m, y, hm, -, -⟩
    · rw [hy] at h
      cases h
    · rw [hn] at hm
      cases hm

/-- A run comes to a node through its visits, one for each of its steps. -/
theorem arriving_through (h : (q.course x s k).1.1 = .going (.arriving n)) : ∃ start es m,
    q.flow.startNode? = some start ∧ Through q.flow start (contextOf q.seed x.heap) (q.legs x s k) es n m ∧
      (q.course x s k).1.2.steps = (q.legs x s k).length := by
  obtain ⟨start, hstart⟩ := going_starts h
  have hlogged := course_logged (x := x) (s := s) hstart k
  rcases hm : q.course x s k with ⟨⟨pr, w⟩, y⟩
  rw [hm] at h hlogged
  cases h
  cases hlogged with
  | between _ _ hsteps hthrough => exact ⟨start, _, _, hstart, hthrough, hsteps⟩

/-- A run that is out of steps has made as many visits as its budget allows. -/
theorem exhausts_spent (hs : x.settings.maxSteps = .scalar (.int budget)) (h : q.Exhausts x s budget k n) :
    ((q.course x s k).1.2.steps : Int) = max budget 0 ∧ (q.legs x s k).length = (q.course x s k).1.2.steps := by
  have hwithin := course_within (q := q) (s := s) hs k
  have hspent := h.spent
  obtain ⟨-, -, -, -, -, hsteps⟩ := arriving_through h.arrives
  exact ⟨by omega, hsteps.symm⟩

end

/-! ## Two budgets -/

/-- The first run has spent its budget at the node, and the second one goes on from there. -/
structure CutShort (q : Request) (x y : Executor) (s : Surroundings) (budget : Int) (k : Nat) (n : Node) (r : Result) :
    Prop where
  ended : (q.course x s (k + 1)).1.1 = .ended (.finished r)
  outcome : r.outcome = .aborted
  /-- It has executed as many nodes as the budget allows, and none if that is negative. -/
  steps : (r.steps : Int) = max budget 0
  visits : ((q.legs x s (k + 1)).length : Int) = max budget 0
  /-- Its entries but the last one are the first entries of the other run. -/
  entries : ∃ es, r.entries = es ++ [q.budgetEntry x s k n] ∧ (∀ j ≥ k, es <+: (q.course y s j).1.2.entries) ∧
    ∀ j r', (q.course y s j).1.1 = .ended (.finished r') → es <+: r'.entries
  calls : ∀ i, ∀ j ≥ k, q.calls x s i <+: q.calls y s j
  pauses : ∀ i, ∀ j ≥ k, q.pauses x s i <+: q.pauses y s j

section

variable {q : Request} {x : Executor} {s : Surroundings} {budget larger : Int}

/-- As long as the budget is not spent, a larger one makes no difference. -/
theorem same_within (hb : budget ≤ larger) {k : Nat} (h : ∀ j < k, ∀ n, ¬ q.Exhausts (x.budgeted budget) s budget j n) :
    SameRun q q (x.budgeted budget) (x.budgeted larger) s k := by
  have hpeers : Peers (x.budgeted budget) (x.budgeted larger) := ⟨rfl, rfl, rfl⟩
  refine same_of_abreast companions_peers fun i hi => course_abreast companions_peers (.refl q.flow) hpeers
    fun j hj n hn => ?_
  have hsteps : ((q.course (x.budgeted budget) s j).1.2.steps : Int) < budget := by
    by_contra hspent
    exact h j (Nat.lt_of_lt_of_le hj hi) n ⟨hn, Int.not_lt.mp hspent⟩
  have hopen : ∀ b : Int, ((q.course (x.budgeted budget) s j).1.2.steps : Int) < b →
      (x.budgeted b).settings.bar? (q.course (x.budgeted budget) s j).2.heap
        (q.course (x.budgeted budget) s j).1.2.steps = none := fun _ hb' => (bar?_none rfl).mpr hb'
  rw [hopen budget hsteps, hopen larger (Int.lt_of_lt_of_le hsteps hb)]

theorem exhausts_once {i k : Nat} {m n : Node} (hi : q.Exhausts (x.budgeted budget) s budget i m)
    (hk : q.Exhausts (x.budgeted budget) s budget k n) : ¬ i < k := by
  intro hik
  obtain ⟨⟨r, hr, -⟩, -⟩ := exhausts_ends (x := x.budgeted budget) rfl hi
  have harrives := hk.arrives
  rw [course_over hr hik, hr] at harrives
  cases harrives

theorem exhausts_cut {k : Nat} {n : Node} (hb : budget ≤ larger) (h : q.Exhausts (x.budgeted budget) s budget k n) :
    ∃ r, CutShort q (x.budgeted budget) (x.budgeted larger) s budget k n r := by
  obtain ⟨⟨r, hr, houtcome, hsteps, hentries⟩, hlegs⟩ := exhausts_ends (x := x.budgeted budget) rfl h
  obtain ⟨hspent, hlength⟩ := exhausts_spent (x := x.budgeted budget) rfl h
  have hsame : SameRun q q (x.budgeted budget) (x.budgeted larger) s k :=
    same_within hb fun j hj m hm => exhausts_once hm h hj
  have hgrown : ∀ j ≥ k, (q.course (x.budgeted budget) s k).1.2.entries <+:
      (q.course (x.budgeted larger) s j).1.2.entries := fun j hj => hsame.entries ▸ entries_grow hj
  refine ⟨r, hr, houtcome, ?_, ?_, ⟨_, hentries, hgrown, fun j r' hr' => ?_⟩, fun i j hj => ?_, fun i j hj => ?_⟩
  · rw [hsteps, hspent]
  · rw [hlegs, hlength, hspent]
  · rw [course_result hr']
    refine hgrown j (Nat.le_of_not_lt fun hj => ?_)
    rw [← course_over hr' (Nat.le_of_lt hj)] at hr'
    have hended := (hsame.ended _).mp hr'
    rw [h.arrives] at hended
    cases hended
  · exact (calls_over hr i).trans (hsame.calls ▸ calls_grow hj)
  · exact (pauses_over hr i).trans (hsame.pauses ▸ pauses_grow hj)

/-- With a larger budget a run is the same, unless it spends the smaller one; then it goes on from there. -/
theorem raising_the_budget_extends (hb : budget ≤ larger) (q : Request) (x : Executor) (s : Surroundings) :
    ((∀ k n, ¬ q.Exhausts (x.budgeted budget) s budget k n) →
      ∀ k, SameRun q q (x.budgeted budget) (x.budgeted larger) s k) ∧
    ∀ k n, q.Exhausts (x.budgeted budget) s budget k n →
      ∃ r, CutShort q (x.budgeted budget) (x.budgeted larger) s budget k n r :=
  ⟨fun h _ => same_within hb fun j _ => h j, fun _ _ h => exhausts_cut hb h⟩

/-- A node that calls and leads to itself, with pauses. The first budget allows one call, the second one two. -/
theorem extension_of_a_calling_loop :
    let start : Node := ⟨"s", .start, .origin, ⟨"Start", none, none, none, none⟩⟩
    let call : Node := ⟨"a", .api, .origin, ⟨"Call", none, none, none, some ⟨"http://x", .get, none, none⟩⟩⟩
    let flow : Flow := ⟨"f", "Loop", none, [start, call], [⟨"c", "s", "a", none⟩, ⟨"d", "a", "a", none⟩]⟩
    let q : Request := ⟨.none, "t", flow, []⟩
    let x : Executor := .create ⟨.scalar (.int 5), .scalar (.int 10)⟩ ⟨0, []⟩ .empty
    let s : Surroundings := ⟨fun _ => .response 200 [49], fun _ => .ok ()⟩
    q.Exhausts (x.budgeted 2) s 2 5 call ∧
      (∃ r, CutShort q (x.budgeted 2) (x.budgeted 3) s 2 5 call r) ∧
      (q.calls (x.budgeted 2) s 6).length = 1 ∧ (q.calls (x.budgeted 3) s 6).length = 2 := by
  intro start call flow q x s
  have hexhausts : q.Exhausts (x.budgeted 2) s 2 5 call := ⟨rfl, by decide⟩
  exact ⟨hexhausts, (raising_the_budget_extends (by decide) q x s).2 5 call hexhausts, by decide +kernel,
    by decide +kernel⟩

end

end StepFlow.Run
