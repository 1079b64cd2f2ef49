/-
  StepFlow.Proofs.Run.Legs — a course by its visits: its memory, its calls, what it executes.

  Between visits nothing happens to the variables and the containers of a run. A turn completes
  one visit, which starts from the memory that the run has and leaves what it has then, or it
  leaves the memory as it is (`Advances`). A visit that calls takes two turns: in the first one
  its node is executed and the call is out, in the second one the answer comes.

  Proved, for every course:
  (1) `course_advances`: what each turn makes of the memory.
  (2) `course_calling`: a call that is out was made in the turn before, from the same memory.
  (3) `calls_legs`: the calls of a run are those of its visits, and one that is out.
  (4) `executing_executed`: its log tells that these nodes have been executed, and no other ones.
-/

import StepFlow.Proofs.Run.Budgets
import StepFlow.Proofs.Run.Seeds

namespace StepFlow.Run

open Script (Memory)

/-! ## Turns -/

/-- From one memory to another one by a visit, or without any. -/
inductive Advances (m : Memory) (leg : Option Leg) (m' : Memory) : Prop
  | rests : leg = none → m' = m → Advances m leg m'
  | visits (l : Leg) : leg = some l → l.before = m → m' = l.after → Advances m leg m'

/-- A call that is out is the one that the handler makes of this memory. -/
def Stage.Apt (stage : Stage) (m : Memory) : Prop :=
  ∀ n c, stage = .calling n c → (Handler.run n m).reached = .calling c

/-- The node whose call is out. -/
def Progress.caller? : Progress → Option Node
  | .going (.calling n _) => some n
  | .going _ | .ended _ => none

section

variable {w : Walk} {x : Executor} {stage : Stage} {s : Surroundings} {k : Nat} {r : Standing}

theorem calling_memory {n : Node} {c : Http.Call} {y : Executor}
    (hr : (Handler.run n ⟨w.env, x.heap⟩).reached = .calling c)
    (hk : Keeps { x with heap := (Handler.run n ⟨w.env, x.heap⟩).memory.heap } y) :
    Standing.memory ((.going (.calling n c), (w.executing n).handled n (Handler.run n ⟨w.env, x.heap⟩)), y) =
      ⟨w.env, x.heap⟩ := by
  refine Eq.trans ?_ (calls_memory hr)
  exact congrArg (Memory.mk _) hk.heap

theorem Goes.uncalled {v : Walk} {y : Executor} {way : Way} (h : Goes v y r way) :
    r.1.1.call? = none ∧ r.1.1.caller? = none := by
  cases h with
  | ends | raises => exact ⟨rfl, rfl⟩
  | @onto pace => cases pace <;> exact ⟨rfl, rfl⟩

theorem Turns.advances (ht : Turns w x stage (s.event k stage) r) (ha : stage.Apt ⟨w.env, x.heap⟩) :
    Advances ⟨w.env, x.heap⟩ (Standing.leg? ((.going stage, w), x) s k) r.memory := by
  generalize he : s.event k stage = e at ht
  cases ht with
  | barred hb hg => exact .rests (leg?_barred hb s k) hg.memory
  | calls hb hr hk => exact .rests (leg?_calls hb hr s k) (calling_memory hr hk)
  | @visits n r hb hr hg =>
    let l : Leg := ⟨n, ⟨w.env, x.heap⟩, s.answer k⟩
    have hafter : l.after = (Handler.run n ⟨w.env, x.heap⟩).memory := by
      rw [Leg.after, Leg.visit, visit_silent l.answer hr]
    exact .visits l (leg?_visits hb hr s k) rfl (hg.memory.trans hafter.symm)
  | @resumes n c a r hg =>
    cases he
    let l : Leg := ⟨n, ⟨w.env, x.heap⟩, s.answer k⟩
    have hafter : l.after = (Handler.resume n c (s.answer k) ⟨w.env, x.heap⟩).memory := by
      rw [Leg.after, Leg.visit, visit_calling l.answer (ha n c rfl), calls_memory (ha n c rfl)]
    exact .visits l rfl rfl (hg.memory.trans hafter.symm)
  | wakes => exact .rests rfl rfl
  | disturbed hc => exact .rests rfl (congrArg (Memory.mk w.env) hc.keeps.heap)

/-- A call is made in one turn, and its visit completed in the next one. -/
theorem Turns.called (ht : Turns w x stage (s.event k stage) r) (ha : stage.Apt ⟨w.env, x.heap⟩) :
    (Progress.going stage).call?.toList =
      (Standing.leg? ((.going stage, w), x) s k).toList.filterMap (·.visit.call) := by
  generalize he : s.event k stage = e at ht
  cases ht with
  | barred hb => rw [leg?_barred hb]; rfl
  | calls hb hr => rw [leg?_calls hb hr]; rfl
  | visits hb hr =>
    rw [leg?_visits hb hr, Option.toList_some, filterMap_call, Leg.visit, visit_silent _ hr]
    rfl
  | @resumes n c =>
    show [c] = [Leg.mk n ⟨w.env, x.heap⟩ (s.answer k)].filterMap (·.visit.call)
    rw [filterMap_call, Leg.visit, visit_calling _ (ha n c rfl)]
    rfl
  | wakes | disturbed => rfl

theorem Goes.executing {v : Walk} {y : Executor} {way : Way} (h : Goes v y r way) :
    r.1.2.entries.filter isExecuting = v.entries.filter isExecuting := by
  cases h with
  | ends =>
    have hend : ∀ e : Ending, [e.entry].filter isExecuting = [] := fun e => by
      rw [List.filter_cons_of_neg (by rw [ending_entry e]; decide), List.filter_nil]
    show (v.entries ++ [_]).filter isExecuting = _
    rw [List.filter_append, hend, List.append_nil]
  | onto | raises => rfl

/-- What the log tells when a node is executed. -/
def executingEntry (n : Node) : Entry := entryOf n ("Executing " ++ n.type.text) .info

theorem told_run (n : Node) (m : Memory) : (told n (Handler.run n m).effects).filter isExecuting = [] := by
  refine List.filter_eq_nil_iff.mpr fun e he => ?_
  have htold := told_visit n m (.failure (.flow "")) e
  cases hr : (Handler.run n m).reached with
  | done | failed =>
    simp only [visit, hr] at htold
    rw [htold he]
    decide
  | calling c =>
    rw [visit_calling _ hr, told_append] at htold
    rw [htold (List.mem_append_left _ he)]
    decide

theorem told_resume {n : Node} {c : Http.Call} {m : Memory} (h : (Handler.run n m).reached = .calling c)
    (a : Http.Answer) : (told n (Handler.resume n c a m).effects).filter isExecuting = [] := by
  refine List.filter_eq_nil_iff.mpr fun e he => ?_
  have htold := told_visit n m a e
  rw [visit_calling a h, calls_memory h, told_append] at htold
  rw [htold (List.mem_append_right _ he)]
  decide

/-- A node that is executed is told of once, before anything that its handler says. -/
theorem executing_handled (w : Walk) (n : Node) (m : Memory) :
    ((w.executing n).handled n (Handler.run n m)).entries.filter isExecuting =
      w.entries.filter isExecuting ++ [executingEntry n] := by
  have hexecuting : isExecuting (executingEntry n) = true := executing_isExecuting ⟨n, m, .failure (.flow "")⟩
  show (w.entries ++ [executingEntry n] ++ told n (Handler.run n m).effects).filter isExecuting = _
  rw [List.filter_append, told_run, List.append_nil, List.filter_append, List.filter_cons_of_pos hexecuting,
    List.filter_nil]

/-- A turn tells that a node is executed when it is, and only then. -/
theorem Turns.executing (ht : Turns w x stage (s.event k stage) r) (ha : stage.Apt ⟨w.env, x.heap⟩) :
    ∃ ns : List Node, r.1.2.entries.filter isExecuting = w.entries.filter isExecuting ++ ns.map executingEntry ∧
      (Progress.going stage).caller?.toList ++ ns =
        (Standing.leg? ((.going stage, w), x) s k).toList.map (·.node) ++ r.1.1.caller?.toList := by
  generalize he : s.event k stage = e at ht
  cases ht with
  | barred hb hg =>
    refine ⟨[], ?_, ?_⟩
    · rw [hg.executing, List.map_nil, List.append_nil]
    · rw [leg?_barred hb, hg.uncalled.2]
      rfl
  | @calls n c y hb hr hk =>
    refine ⟨[n], executing_handled w n _, ?_⟩
    rw [leg?_calls hb hr]
    rfl
  | @visits n r hb hr hg =>
    refine ⟨[n], hg.executing.trans (executing_handled w n _), ?_⟩
    rw [leg?_visits hb hr, hg.uncalled.2]
    rfl
  | @resumes n c a r hg =>
    refine ⟨[], hg.executing.trans ?_, ?_⟩
    · show (w.entries ++ told n _).filter isExecuting = _
      rw [List.filter_append, told_resume (ha n c rfl), List.map_nil]
    · rw [hg.uncalled.2]
      rfl
  | wakes => exact ⟨[], (List.append_nil _).symm, rfl⟩
  | disturbed => exact ⟨[], (List.append_nil _).symm, rfl⟩

end

/-! ## Courses -/

/-- The nodes that a run has executed after that many turns: those of its visits, and the one
    whose call is out. -/
def Request.executed (q : Request) (x : Executor) (s : Surroundings) (k : Nat) : List Node :=
  (q.legs x s k).map (·.node) ++ (q.course x s k).1.1.caller?.toList

section

variable {q : Request} {x : Executor} {s : Surroundings}

theorem course_apt {k : Nat} {stage : Stage} (h : (q.course x s k).1.1 = .going stage) :
    stage.Apt (q.course x s k).memory := by
  rintro n c rfl
  obtain ⟨start, hstart⟩ := going_starts h
  have hlogged := course_logged (x := x) (s := s) hstart k
  rcases hm : q.course x s k with ⟨⟨pr, w⟩, y⟩
  rw [hm] at h hlogged
  cases h
  cases hlogged with
  | between hstage => exact absurd rfl (hstage n c)
  | within hreached => exact hreached

theorem leg?_going {m : Standing} {stage : Stage} (h : m.1.1 = .going stage) (k : Nat) :
    m.leg? s k = Standing.leg? ((.going stage, m.1.2), m.2) s k := by
  rw [Standing.leg?, h]
  rfl

theorem leg?_ended {m : Standing} {e : Ended} (h : m.1.1 = .ended e) (k : Nat) : m.leg? s k = none := by
  rw [Standing.leg?, h]

theorem course_advances (k : Nat) :
    Advances (q.course x s k).memory ((q.course x s k).leg? s k) (q.course x s (k + 1)).memory := by
  cases hk : (q.course x s k).1.1 with
  | ended e => exact .rests (leg?_ended hk k) (by rw [course_ended q s hk])
  | going stage =>
    rw [leg?_going hk]
    exact (course_turns hk).advances (course_apt hk)

/-- A call that is out was made in the turn before, and the memory is still what it was. -/
theorem course_calling {k : Nat} {n : Node} {c : Http.Call} (h : (q.course x s k).1.1 = .going (.calling n c)) :
    ∃ i, k = i + 1 ∧ (q.course x s i).1.1 = .going (.arriving n) ∧
      (q.course x s k).memory = (q.course x s i).memory := by
  cases k with
  | zero =>
    rcases begun_cases q x with ⟨-, y, hy, -⟩ | ⟨m, y, -, hy, -⟩
    · rw [Request.course, hy] at h
      cases h
    · rw [Request.course, hy] at h
      cases h
  | succ i =>
    refine ⟨i, rfl, ?_⟩
    cases hi : (q.course x s i).1.1 with
    | ended e =>
      rw [course_ended q s hi, hi] at h
      cases h
    | going stage =>
      have hturns := course_turns hi
      generalize q.course x s i = m at hi hturns ⊢
      generalize q.course x s (i + 1) = r at h hturns ⊢
      obtain ⟨⟨pr, w⟩, y⟩ := m
      cases hi
      generalize he : s.event i stage = e at hturns
      cases hturns with
      | barred hb hg | visits hb hr hg | resumes hg =>
        have hcall := hg.uncalled.1
        rw [h] at hcall
        cases hcall
      | calls hb hr hk =>
        cases h
        exact ⟨rfl, calling_memory hr hk⟩
      | wakes | disturbed => cases h

theorem calls_next (k : Nat) :
    q.calls x s (k + 1) = q.calls x s k ++ (q.course x s (k + 1)).1.1.call?.toList := by
  unfold Request.calls
  rw [List.range_succ, List.filterMap_append]
  cases hf : (q.course x s (k + 1)).1.1.call? <;> simp [hf]

theorem calls_legs (k : Nat) :
    q.calls x s k = (q.legs x s k).filterMap (·.visit.call) ++ (q.course x s k).1.1.call?.toList := by
  induction k with
  | zero =>
    show [(q.begun x).1.1].filterMap Progress.call? = (q.begun x).1.1.call?.toList
    cases hf : (q.begun x).1.1.call? <;> simp [hf]
  | succ k ih =>
    have hcalled : (q.course x s k).1.1.call?.toList =
        ((q.course x s k).leg? s k).toList.filterMap (·.visit.call) := by
      cases hk : (q.course x s k).1.1 with
      | ended e =>
        rw [leg?_ended hk]
        rfl
      | going stage =>
        rw [leg?_going hk]
        exact (course_turns hk).called (course_apt hk)
    rw [calls_next, ih, Request.legs, List.filterMap_append, hcalled, List.append_assoc]

theorem begun_executing (q : Request) (x : Executor) :
    (q.begun x).1.2.entries.filter isExecuting = [] ∧ (q.begun x).1.1.caller? = none := by
  have hstranded : isExecuting strandedEntry = false :=
    isExecuting_false (c := 'N') (d := 'o') (show "No Start node found in flow".toList.take 2 = _ from rfl) (by decide)
  have hstarting : isExecuting startingEntry = false := isExecuting_false (c := 'S') (d := 't') rfl (by decide)
  rcases begun_cases q x with ⟨-, y, hy, -⟩ | ⟨n, y, -, hy, -⟩
  · rw [hy]
    exact ⟨List.filter_cons_of_neg (by rw [hstranded]; decide), rfl⟩
  · rw [hy]
    exact ⟨List.filter_cons_of_neg (by rw [hstarting]; decide), rfl⟩

/-- The log tells of just the nodes that have been executed. -/
theorem executing_executed (k : Nat) :
    (q.course x s k).1.2.entries.filter isExecuting = (q.executed x s k).map executingEntry := by
  induction k with
  | zero =>
    obtain ⟨hentries, hcaller⟩ := begun_executing q x
    rw [Request.executed, Request.course, hentries, hcaller]
    rfl
  | succ k ih =>
    cases hk : (q.course x s k).1.1 with
    | ended e => rw [Request.executed, legs_ended hk, course_ended q s hk, ih, Request.executed]
    | going stage =>
      obtain ⟨ns, hentries, hnodes⟩ := (course_turns hk).executing (course_apt hk)
      rw [← leg?_going hk] at hnodes
      rw [hentries, ih, ← List.map_append, Request.executed, hk, List.append_assoc, hnodes, ← List.append_assoc,
        ← List.map_append]
      rfl

end

end StepFlow.Run
