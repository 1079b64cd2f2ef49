/-
  StepFlow.Proofs.Run.Trace — what a run leaves outside: its entries, its calls and its pauses.

  Each entry that a run keeps is published when it is kept. A call that is made is the one that
  is out in that turn (`Progress.call?`), and so it is with a pause. All of these only grow, and
  a run that is over adds nothing to them.

  Proved, for every flow, executor and surroundings:
  (1) `course_shows`: all that a run does to the board is to publish, and the entries among
      what it publishes are those that it has kept.
  (2) `course_result`: when it finishes, the result tells of just these.
  (3) `entries_grow`, `calls_grow`, `pauses_grow`: what there was after a turn is a prefix of
      what there is later.
  (4) `calls_over`, `pauses_over`: a run that is over in the next turn has made all of them.
-/

import StepFlow.Proofs.Run.Course

namespace StepFlow.Run

/-! ## What a run does outside -/

/-- The call that is out. -/
def Progress.call? : Progress → Option Http.Call
  | .going (.calling _ c) => some c
  | .going _ | .ended _ => none

/-- How long the run pauses. -/
def Progress.pause? : Progress → Option Float
  | .going (.pausing _ seconds) => some seconds
  | .going _ | .ended _ => none

/-- The calls that a run has made up to a turn. -/
def Request.calls (q : Request) (x : Executor) (s : Surroundings) (k : Nat) : List Http.Call :=
  (List.range (k + 1)).filterMap fun j => (q.course x s j).1.1.call?

/-- The pauses that a run has made up to a turn. -/
def Request.pauses (q : Request) (x : Executor) (s : Surroundings) (k : Nat) : List Float :=
  (List.range (k + 1)).filterMap fun j => (q.course x s j).1.1.pause?

section

variable (q : Request) (x : Executor) (s : Surroundings)

/-! ## Entries -/

/-- What a run has kept is what it has published. -/
theorem course_shows (k : Nat) :
    ∃ ss, Shows x ss (q.course x s k).2 ∧ (q.course x s k).1.2.entries = entriesOf ss := by
  induction k with
  | zero =>
    obtain ⟨ss, hss, he⟩ := (begin_settles (.initial q.caller q.tag q.flow q.seed) { x with locked := true }).shows
    exact ⟨ss, ⟨hss.board, hss.program⟩, he⟩
  | succ k ih =>
    cases hk : (q.course x s k).1.1 with
    | ended e =>
      rw [course_ended q s hk]
      exact ih
    | going stage =>
      obtain ⟨ss, hss, he⟩ := ih
      obtain ⟨ts, hts, he'⟩ :=
        (turn_settles ⟨(q.course x s k).1.2, stage⟩ (s.event k stage) (q.course x s k).1.2 (q.course x s k).2).shows
      rw [Request.course, turned_going s hk]
      refine ⟨ss ++ ts, hss.trans hts, ?_⟩
      rw [he', he, entriesOf_append]

variable {q x s}

/-- The entries of a result are those that the run has kept. -/
theorem course_result {k : Nat} {r : Result} (h : (q.course x s k).1.1 = .ended (.finished r)) :
    r.entries = (q.course x s k).1.2.entries := by
  induction k with
  | zero => exact ((begin_settles (.initial q.caller q.tag q.flow q.seed) { x with locked := true }).result r h).1
  | succ k ih =>
    cases hk : (q.course x s k).1.1 with
    | ended e =>
      rw [course_ended q s hk] at h ⊢
      exact ih h
    | going stage =>
      rw [Request.course, turned_going s hk] at h ⊢
      exact ((turn_settles _ _ _ _).result r h).1

/-- A run that is over stays over. -/
theorem course_over {i j : Nat} {e : Ended} (h : (q.course x s i).1.1 = .ended e) (hij : i ≤ j) :
    q.course x s j = q.course x s i := by
  induction hij with
  | refl => rfl
  | step _ ih => rw [course_ended q s (by rw [ih]; exact h), ih]

theorem entries_grow {i j : Nat} (hij : i ≤ j) : (q.course x s i).1.2.entries <+: (q.course x s j).1.2.entries := by
  induction hij with
  | refl => exact List.prefix_rfl
  | @step j _ ih =>
    cases hj : (q.course x s j).1.1 with
    | ended e =>
      rw [course_ended q s hj]
      exact ih
    | going stage =>
      obtain ⟨ts, -, he⟩ := (turn_settles ⟨(q.course x s j).1.2, stage⟩ (s.event j stage) _ (q.course x s j).2).shows
      rw [Request.course, turned_going s hj, he]
      exact ih.trans (List.prefix_append _ _)

/-! ## Calls and pauses -/

/-- What is gathered over turns only grows. -/
theorem gathered_grow {α : Type} (f : Nat → Option α) {i j : Nat} (hij : i ≤ j) :
    (List.range i).filterMap f <+: (List.range j).filterMap f := by
  induction hij with
  | refl => exact List.prefix_rfl
  | @step j _ ih =>
    have hnext : (List.range (j + 1)).filterMap f = (List.range j).filterMap f ++ (f j).toList := by
      rw [List.range_succ, List.filterMap_append]
      cases hf : f j <;> simp [hf]
    rw [hnext]
    exact ih.trans (List.prefix_append _ _)

/-- What nothing more is gathered to is complete. -/
theorem gathered_still {α : Type} {f : Nat → Option α} {i : Nat} (hf : ∀ j, i ≤ j → f j = none) (j : Nat) :
    (List.range j).filterMap f <+: (List.range i).filterMap f := by
  by_cases hj : j ≤ i
  · exact gathered_grow f hj
  · obtain ⟨d, rfl⟩ := Nat.exists_eq_add_of_le (Nat.le_of_not_le hj)
    have hnone : ((List.range d).map (i + ·)).filterMap f = [] := by
      refine List.filterMap_eq_nil_iff.mpr fun a ha => ?_
      obtain ⟨c, -, rfl⟩ := List.mem_map.mp ha
      exact hf _ (Nat.le_add_right i c)
    rw [List.range_add, List.filterMap_append, hnone, List.append_nil]

theorem calls_grow {i j : Nat} (hij : i ≤ j) : q.calls x s i <+: q.calls x s j :=
  gathered_grow _ (Nat.succ_le_succ hij)

theorem pauses_grow {i j : Nat} (hij : i ≤ j) : q.pauses x s i <+: q.pauses x s j :=
  gathered_grow _ (Nat.succ_le_succ hij)

/-- A run that is over in the next turn has made all its calls. -/
theorem calls_over {k : Nat} {e : Ended} (h : (q.course x s (k + 1)).1.1 = .ended e) (i : Nat) :
    q.calls x s i <+: q.calls x s k := by
  refine gathered_still (fun j hj => ?_) (i + 1)
  rw [course_over h hj, h]
  rfl

theorem pauses_over {k : Nat} {e : Ended} (h : (q.course x s (k + 1)).1.1 = .ended e) (i : Nat) :
    q.pauses x s i <+: q.pauses x s k := by
  refine gathered_still (fun j hj => ?_) (i + 1)
  rw [course_over h hj, h]
  rfl

end

end StepFlow.Run
