/-
  StepFlow.Proofs.Run.Exclusion — runs of one executor exclude one another.

  A system is an executor with all the calls that have been made of it (`Job`). It moves by a
  new call, or by an event for a call that was made before: the answer to its HTTP call, the
  end of its pause, or its own next step. Moves come in any order. A run goes on by itself
  between two suspensions, so there are more interleavings here than there are of runs.

  Of the calls the first to find the lock free is accepted, and until it is over all others
  are rejected: they return at once, and leave nothing but a record in the log.

  Proved, for every list of moves:
  (1) `Exclusive.after`: the lock is held exactly while an accepted call is unfinished, there
      is at most one of these, and all calls after it are rejected; what has been published
      on `logs` is what the accepted calls have kept, one after another.
  (2) `Erases.after`: without the rejected calls, all others come as far as they do with them.
  (3) `shown_heard`: a stream that listens to `logs` hears what is published there.
-/

import StepFlow.Proofs.Channel.Listening
import StepFlow.Proofs.Run.Turns

namespace StepFlow.Run

/-! ## Systems -/

structure Request where
  caller : Log.Scope
  tag : String
  flow : Flow
  seed : Env

/-- A call that was made, as far as it has come. -/
structure Job where
  /-- The lock was free. -/
  accepted : Bool
  state : Next
  /-- The entries that it has kept. -/
  logs : List Entry
  /-- The HTTP calls that it has made. -/
  sent : List Http.Call

namespace Job

def unfinished (j : Job) : Bool := j.state.isLeft

def rejected : Job := ⟨false, .inr (.finished ⟨"", .rejected, 0, []⟩), [], []⟩

end Job

inductive Move where
  | ask (q : Request)
  /-- An event for the call of that number. -/
  | event (i : Nat) (e : Event)

structure System where
  executor : Executor
  jobs : List Job

/-- The walk of a call that is accepted, with its first steps. -/
def Request.begun (q : Request) (x : Executor) : (Progress × Walk) × Executor :=
  (begin.run (.initial q.caller q.tag q.flow q.seed)).run { x with locked := true }

def Request.job (q : Request) (x : Executor) : Job × Executor :=
  let r := (request q.caller q.tag q.flow q.seed).run x
  (⟨!x.locked, r.1, if x.locked then [] else (q.begun x).1.2.entries, []⟩, r.2)

/-- Whether the event is one that the run waits for. -/
def Process.waits (p : Process) (e : Event) : Bool :=
  match p.stage, e with
  | .arriving _, .step | .calling .., .answer _ | .pausing .., .wake _ => true
  | _, _ => false

/-- The HTTP call that a run makes by an event. -/
def Process.callMade (p : Process) (e : Event) : Next → List Http.Call
  | .inl ⟨_, .calling _ c⟩ => if p.waits e then [c] else []
  | _ => []

/-- An event for a call that is at this stage. -/
def Job.next (j : Job) (p : Process) (e : Event) (x : Executor) : Job × Executor :=
  let r := (p.next e).run x
  (⟨j.accepted, r.1, (((p.turn e).run p.walk).run x).1.2.entries, j.sent ++ p.callMade e r.1⟩, r.2)

namespace System

def start (x : Executor) : System := ⟨x, []⟩

def move (s : System) : Move → System
  | .ask q => ⟨(q.job s.executor).2, s.jobs ++ [(q.job s.executor).1]⟩
  | .event i e =>
    match s.jobs[i]? with
    | none => s
    | some j =>
      match j.state with
      | .inl p => ⟨(j.next p e s.executor).2, s.jobs.set i (j.next p e s.executor).1⟩
      | .inr _ => s

def after (s : System) (ms : List Move) : System := ms.foldl move s

def accepted (s : System) : List Job := s.jobs.filter (·.accepted)

/-- The move without the calls that are rejected, if it is left at all. -/
def kept (s : System) : Move → List Move
  | .ask q => if s.executor.locked then [] else [.ask q]
  | .event i e =>
    match s.jobs[i]? with
    | none => []
    | some j => if j.accepted then [.event ((s.jobs.take i).countP (·.accepted)) e] else []

/-- The moves without the calls that are rejected. -/
def erased : System → List Move → List Move
  | _, [] => []
  | s, m :: ms => s.kept m ++ erased (s.move m) ms

end System

/-! ## Calls and events -/

theorem job_locked {q : Request} {x : Executor} (h : x.locked = true) :
    q.job x = (.rejected, refused q.caller q.flow x) := by
  simp only [Request.job, request_run, h, if_true, Bool.not_true]
  rfl

theorem job_free {q : Request} {x : Executor} (h : x.locked = false) :
    q.job x = (⟨true, ofProgress (q.begun x).1, (q.begun x).1.2.entries, []⟩, (q.begun x).2) := by
  simp only [Request.job, request_run, h, Bool.false_eq_true, if_false, Bool.not_false]
  rfl

theorem begun_settles (q : Request) (x : Executor) :
    Settles begin (.initial q.caller q.tag q.flow q.seed) { x with locked := true } := begin_settles _ _

theorem next_run (j : Job) (p : Process) (e : Event) (x : Executor) :
    j.next p e x =
      (⟨j.accepted, ofProgress (((p.turn e).run p.walk).run x).1, (((p.turn e).run p.walk).run x).1.2.entries,
        j.sent ++ p.callMade e (ofProgress (((p.turn e).run p.walk).run x).1)⟩,
        (((p.turn e).run p.walk).run x).2) := rfl

/-- Calls take no notice of the logger. -/
theorem job_blind (q : Request) (x : Executor) (l : Log.Logger) :
    ∃ l', q.job (x.logging l) = ((q.job x).1, (q.job x).2.logging l') := by
  cases h : x.locked with
  | true =>
    rw [job_locked h, job_locked (x := x.logging l) h]
    exact ⟨_, rfl⟩
  | false =>
    obtain ⟨l', hl⟩ := (begun_settles q x).blind l
    refine ⟨l', ?_⟩
    rw [job_free h, job_free (x := x.logging l) h]
    have hb : q.begun (x.logging l) = ((q.begun x).1, (q.begun x).2.logging l') := hl
    rw [hb]

theorem next_blind (j : Job) (p : Process) (e : Event) (x : Executor) (l : Log.Logger) :
    ∃ l', j.next p e (x.logging l) = ((j.next p e x).1, (j.next p e x).2.logging l') := by
  obtain ⟨l', hl⟩ := (turn_settles p e p.walk x).blind l
  exact ⟨l', by rw [next_run, next_run, hl]⟩

/-! ## The lock -/

/-- Who holds the lock: nobody, or the one accepted call that is unfinished. -/
inductive Held : Bool → List Job → Prop
  | free {js : List Job} : (∀ j ∈ js, j.unfinished = false) → Held false js
  | taken {before after : List Job} {j : Job} {p : Process} :
    (∀ k ∈ before, k.unfinished = false) → (∀ k ∈ after, k = .rejected) → j.accepted = true → j.state = .inl p →
      j.logs = p.walk.entries → Held true (before ++ j :: after)

theorem unfinished_inl {j : Job} {p : Process} (h : j.state = .inl p) : j.unfinished = true := by
  rw [Job.unfinished, h]
  rfl

/-- An unfinished call is the one that holds the lock. -/
theorem unfinished_at {before after : List Job} {j k : Job} {p : Process} {i : Nat}
    (hb : ∀ k ∈ before, k.unfinished = false) (ha : ∀ k ∈ after, k = .rejected)
    (hi : (before ++ j :: after)[i]? = some k) (hk : k.state = .inl p) : i = before.length ∧ k = j := by
  have hunfinished := unfinished_inl hk
  rcases Nat.lt_trichotomy i before.length with hlt | rfl | hgt
  · rw [List.getElem?_append_left hlt] at hi
    rw [hb k (List.mem_of_getElem? hi)] at hunfinished
    cases hunfinished
  · rw [List.getElem?_append_right (Nat.le_refl _), Nat.sub_self] at hi
    exact ⟨rfl, (Option.some.inj hi).symm⟩
  · rw [List.getElem?_append_right (Nat.le_of_lt hgt)] at hi
    obtain ⟨d, hd⟩ := Nat.exists_eq_add_of_lt hgt
    have hsub : i - before.length = d + 1 := by omega
    rw [hsub, List.getElem?_cons_succ] at hi
    rw [ha k (List.mem_of_getElem? hi)] at hunfinished
    cases hunfinished

theorem Held.reject {js : List Job} (h : Held true js) : Held true (js ++ [.rejected]) := by
  cases h with
  | taken hb ha hj hs hl =>
    rw [List.append_assoc, List.cons_append]
    exact .taken hb (List.forall_mem_append.mpr ⟨ha, List.forall_mem_singleton.mpr rfl⟩) hj hs hl

/-- What a call has kept is what its run has, or what its result tells. -/
structure Job.Told (j : Job) : Prop where
  going : ∀ p, j.state = .inl p → j.logs = p.walk.entries
  done : ∀ r, j.state = .inr (.finished r) → r.entries = j.logs ∧ r.outcome ≠ .rejected

/-- An accepted call with none but rejected calls after it holds the lock unless it is over. -/
theorem held_by {before after : List Job} {j : Job} (hb : ∀ k ∈ before, k.unfinished = false)
    (ha : ∀ k ∈ after, k = .rejected) (hj : j.accepted = true) (hl : j.Told) :
    Held j.unfinished (before ++ j :: after) := by
  cases hs : j.state with
  | inl p =>
    rw [unfinished_inl hs]
    exact .taken hb ha hj hs (hl.going p hs)
  | inr r =>
    have hover : j.unfinished = false := by rw [Job.unfinished, hs]; rfl
    rw [hover]
    have hafter : ∀ k ∈ after, k.unfinished = false := fun k hk => by rw [ha k hk]; rfl
    exact .free (List.forall_mem_append.mpr ⟨hb, List.forall_mem_cons.mpr ⟨hover, hafter⟩⟩)

/-- The call of a run that has settled. -/
def jobOf (r : Progress × Walk) (sent : List Http.Call) : Job := ⟨true, ofProgress r, r.2.entries, sent⟩

theorem Settles.job {act : Walking Progress} {w : Walk} {x : Executor} (h : Settles act w x) (hx : x.locked = true)
    (sent : List Http.Call) :
    (jobOf ((act.run w).run x).1 sent).Told ∧
      ((act.run w).run x).2.locked = (jobOf ((act.run w).run x).1 sent).unfinished := by
  have hlock := h.locked
  have hresult := h.result
  rw [hx] at hlock
  generalize (act.run w).run x = r at hlock hresult
  obtain ⟨⟨pr, v⟩, y⟩ := r
  cases pr with
  | going s => exact ⟨⟨by intro p h; cases h; rfl, by intro r h; cases h⟩, hlock⟩
  | ended e => exact ⟨⟨(by intro p h; cases h), fun r hr => hresult r (by cases hr; rfl)⟩, hlock⟩

/-! ## Systems that have moved -/

structure Exclusive (x : Executor) (s : System) : Prop where
  held : Held s.executor.locked s.jobs
  shown : ∃ ss, Shows x ss s.executor ∧ entriesOf ss = s.accepted.flatMap (·.logs)
  told : ∀ j ∈ s.jobs, j.accepted = true → j.Told
  rejected : ∀ j ∈ s.jobs, j.accepted = false → j = .rejected

theorem refused_shows (caller : Log.Scope) (flow : Flow) (x : Executor) : Shows x [] (refused caller flow x) :=
  ⟨rfl, rfl⟩

section

variable {x : Executor} {s : System}

/-- A call that finds the lock held changes nothing of the others. -/
theorem Exclusive.reject (h : Exclusive x s) (hs : s.executor.locked = true) (q : Request) :
    Exclusive x (s.move (.ask q)) := by
  have hmove : s.move (.ask q) = ⟨refused q.caller q.flow s.executor, s.jobs ++ [.rejected]⟩ := by
    rw [System.move, job_locked hs]
  obtain ⟨ss, hss, he⟩ := h.shown
  rw [hmove]
  refine ⟨?_, ⟨ss, ?_, ?_⟩, ?_, ?_⟩
  · have hheld := h.held
    rw [hs] at hheld
    rw [(refused_keeps q.caller q.flow s.executor).locked, hs]
    exact hheld.reject
  · have hshows := hss.trans (refused_shows q.caller q.flow s.executor)
    rw [List.append_nil] at hshows
    exact hshows
  · rw [he, System.accepted, System.accepted, List.filter_append]
    simp [Job.rejected]
  · exact List.forall_mem_append.mpr ⟨h.told, List.forall_mem_singleton.mpr fun hr => by cases hr⟩
  · exact List.forall_mem_append.mpr ⟨h.rejected, List.forall_mem_singleton.mpr fun _ => rfl⟩

/-- A call that finds the lock free is accepted. -/
theorem Exclusive.accept (h : Exclusive x s) (hs : s.executor.locked = false) (q : Request) :
    Exclusive x (s.move (.ask q)) := by
  have hmove : s.move (.ask q) = ⟨(q.begun s.executor).2, s.jobs ++ [jobOf (q.begun s.executor).1 []]⟩ := by
    rw [System.move, job_free hs]
    rfl
  have hsettles := begun_settles q s.executor
  obtain ⟨htold, hlock⟩ := hsettles.job rfl []
  obtain ⟨ss, hss, he⟩ := h.shown
  obtain ⟨ts, hts, he'⟩ := hsettles.shows
  rw [hmove]
  refine ⟨?_, ⟨ss ++ ts, ?_, ?_⟩, ?_, ?_⟩
  · have hheld := h.held
    rw [hs] at hheld
    cases hheld with
    | free hf =>
      show Held (q.begun s.executor).2.locked _
      rw [show (q.begun s.executor).2.locked = _ from hlock]
      exact held_by hf (by simp) rfl htold
  · exact hss.trans ⟨hts.board, hts.program⟩
  · rw [entriesOf_append, he, System.accepted, System.accepted, List.filter_append, List.flatMap_append]
    show _ = _ ++ ((q.begun s.executor).1.2.entries ++ [])
    rw [List.append_nil, show (q.begun s.executor).1.2.entries = _ from he']
    rfl
  · exact List.forall_mem_append.mpr ⟨h.told, List.forall_mem_singleton.mpr fun _ => htold⟩
  · exact List.forall_mem_append.mpr ⟨h.rejected, List.forall_mem_singleton.mpr fun hr => by cases hr⟩

/-- The accepted calls, where all after one of them are rejected. -/
theorem accepted_upto {y : Executor} {before after : List Job} {j : Job} (ha : ∀ k ∈ after, k = .rejected)
    (hj : j.accepted = true) : (System.mk y (before ++ j :: after)).accepted = before.filter (·.accepted) ++ [j] := by
  have hnone : after.filter (·.accepted) = [] :=
    List.filter_eq_nil_iff.mpr fun k hk => by rw [ha k hk]; decide
  rw [System.accepted, List.filter_append, List.filter_cons_of_pos hj, hnone]

/-- A turn of the call that holds the lock. -/
theorem Exclusive.turn {y : Executor} {before after : List Job} {j : Job} {p : Process}
    (h : Exclusive x ⟨y, before ++ j :: after⟩) (hy : y.locked = true) (hb : ∀ k ∈ before, k.unfinished = false)
    (ha : ∀ k ∈ after, k = .rejected) (hj : j.accepted = true) (hl : j.logs = p.walk.entries) (e : Event) :
    Exclusive x ⟨(j.next p e y).2, before ++ (j.next p e y).1 :: after⟩ := by
  obtain ⟨-, ⟨ss, hss, he⟩, htold, hrejected⟩ := h
  have hsettles := turn_settles p e p.walk y
  obtain ⟨htold', hlock⟩ := hsettles.job hy (j.sent ++ p.callMade e (ofProgress (((p.turn e).run p.walk).run y).1))
  obtain ⟨ts, hts, he'⟩ := hsettles.shows
  rw [next_run, hj]
  refine ⟨?_, ⟨ss ++ ts, hss.trans hts, ?_⟩, ?_, ?_⟩
  · dsimp only
    rw [hlock]
    exact held_by hb ha rfl htold'
  · rw [entriesOf_append, he, accepted_upto ha hj, accepted_upto ha rfl]
    simp [hl, he']
  · obtain ⟨hbefore, hrest⟩ := List.forall_mem_append.mp htold
    obtain ⟨-, hafter⟩ := List.forall_mem_cons.mp hrest
    exact List.forall_mem_append.mpr ⟨hbefore, List.forall_mem_cons.mpr ⟨fun _ => htold', hafter⟩⟩
  · obtain ⟨hbefore, -⟩ := List.forall_mem_append.mp hrejected
    refine List.forall_mem_append.mpr ⟨hbefore, List.forall_mem_cons.mpr ⟨?_, fun k hk _ => ha k hk⟩⟩
    intro hr
    cases hr

/-- An event moves the call that holds the lock, or none. -/
theorem Exclusive.event (h : Exclusive x s) (i : Nat) (e : Event) : Exclusive x (s.move (.event i e)) := by
  obtain ⟨y, js⟩ := s
  cases hi : js[i]? with
  | none =>
    simp only [System.move, hi]
    exact h
  | some j =>
    cases hstate : j.state with
    | inr r =>
      simp only [System.move, hi, hstate]
      exact h
    | inl p =>
      simp only [System.move, hi, hstate]
      have hheld : Held y.locked js := h.held
      generalize hb : y.locked = b at hheld
      cases hheld with
      | free hf =>
        have hunfinished := unfinished_inl hstate
        rw [hf j (List.mem_of_getElem? hi)] at hunfinished
        cases hunfinished
      | taken hbefore hafter hj hs hl =>
        obtain ⟨rfl, rfl⟩ := unfinished_at hbefore hafter hi hstate
        rw [hstate] at hs
        cases hs
        rw [List.set_append_right _ _ (Nat.le_refl _), Nat.sub_self, List.set_cons_zero]
        exact h.turn hb hbefore hafter hj hl e

theorem Exclusive.move (h : Exclusive x s) (m : Move) : Exclusive x (s.move m) := by
  cases m with
  | event i e => exact h.event i e
  | ask q =>
    cases hs : s.executor.locked with
    | true => exact h.reject hs q
    | false => exact h.accept hs q

theorem Exclusive.after (h : Exclusive x s) (ms : List Move) : Exclusive x (s.after ms) := by
  induction ms generalizing s with
  | nil => exact h
  | cons m ms ih => exact ih (h.move m)

end

theorem start_exclusive {x : Executor} (hx : x.locked = false) : Exclusive x (.start x) := by
  refine ⟨?_, ⟨[], ⟨rfl, rfl⟩, rfl⟩, (by intro j h; cases h), by intro j h; cases h⟩
  show Held x.locked []
  rw [hx]
  exact .free (by intro j h; cases h)

/-! ## Without the rejected calls -/

/-- Where an item is left among those that a filter keeps. -/
theorem filter_at {α : Type} (f : α → Bool) {l : List α} {i : Nat} {a : α} (hi : l[i]? = some a) (ha : f a = true) :
    (l.filter f)[(l.take i).countP f]? = some a ∧
      ∀ b, f b = true → (l.filter f).set ((l.take i).countP f) b = (l.set i b).filter f := by
  obtain ⟨hlt, hget⟩ := List.getElem?_eq_some_iff.mp hi
  have hsplit : l = l.take i ++ a :: l.drop (i + 1) := by
    rw [← hget, ← List.drop_eq_getElem_cons hlt, List.take_append_drop]
  have hlength : (l.take i).length = i := by
    rw [List.length_take]
    omega
  generalize l.take i = before at hsplit hlength ⊢
  generalize l.drop (i + 1) = rest at hsplit
  subst hsplit hlength
  have hcount : before.countP f = (before.filter f).length := List.countP_eq_length_filter
  rw [hcount, List.filter_append, List.filter_cons_of_pos ha]
  refine ⟨?_, fun b hb => ?_⟩
  · rw [List.getElem?_append_right (Nat.le_refl _), Nat.sub_self, List.getElem?_cons_zero]
  · rw [List.set_append_right _ _ (Nat.le_refl _), Nat.sub_self, List.set_cons_zero,
      List.set_append_right _ _ (Nat.le_refl _), Nat.sub_self, List.set_cons_zero, List.filter_append,
      List.filter_cons_of_pos hb]

/-- The second system is the first one without its rejected calls, and their records. -/
structure Erases (s t : System) : Prop where
  jobs : t.jobs = s.accepted
  executor : ∃ l, s.executor = t.executor.logging l

section

variable {s t : System}

theorem Erases.ask (h : Erases s t) (q : Request) : Erases (s.move (.ask q)) (t.after (s.kept (.ask q))) := by
  obtain ⟨hjobs, l, hl⟩ := h
  cases hs : s.executor.locked with
  | true =>
    have hkept : s.kept (.ask q) = [] := if_pos hs
    rw [hkept, System.move, job_locked hs]
    refine ⟨?_, (refused q.caller q.flow s.executor).logger, ?_⟩
    · rw [System.accepted, List.filter_append]
      simp [System.after, hjobs, System.accepted, Job.rejected]
    · rw [hl]
      rfl
  | false =>
    have hkept : s.kept (.ask q) = [.ask q] := if_neg (by rw [hs]; decide)
    obtain ⟨l', hblind⟩ := job_blind q t.executor l
    rw [← hl] at hblind
    have haccepted : (q.job s.executor).1.accepted = true := by rw [job_free hs]
    rw [hkept]
    refine ⟨?_, l', ?_⟩
    · show t.jobs ++ [(q.job t.executor).1] = (s.jobs ++ [(q.job s.executor).1]).filter (·.accepted)
      rw [List.filter_append, List.filter_cons_of_pos haccepted, hblind, hjobs]
      rfl
    · show (q.job s.executor).2 = _
      rw [hblind]
      rfl

theorem Erases.event (h : Erases s t) (hr : ∀ j ∈ s.jobs, j.accepted = false → j = .rejected) (i : Nat) (e : Event) :
    Erases (s.move (.event i e)) (t.after (s.kept (.event i e))) := by
  cases hi : s.jobs[i]? with
  | none =>
    simp only [System.move, System.kept, hi]
    exact h
  | some j =>
    cases hj : j.accepted with
    | false =>
      have hrejected := hr j (List.mem_of_getElem? hi) hj
      subst hrejected
      simp only [System.move, System.kept, hi, hj]
      exact h
    | true =>
      obtain ⟨hat, hset⟩ := filter_at (·.accepted) hi hj
      obtain ⟨hjobs, l, hl⟩ := h
      have hjobs' : t.jobs = s.jobs.filter (·.accepted) := hjobs
      rw [← hjobs'] at hat hset
      cases hstate : j.state with
      | inr r =>
        simp only [System.move, System.kept, System.after, hi, hj, if_true, List.foldl_cons, List.foldl_nil, hat,
          hstate]
        exact ⟨hjobs, l, hl⟩
      | inl p =>
        simp only [System.move, System.kept, System.after, hi, hj, if_true, List.foldl_cons, List.foldl_nil, hat,
          hstate]
        obtain ⟨l', hblind⟩ := next_blind j p e t.executor l
        rw [← hl] at hblind
        refine ⟨?_, l', ?_⟩
        · have haccepted : (j.next p e t.executor).1.accepted = true := hj
          rw [hblind]
          exact hset _ haccepted
        · rw [hblind]

theorem Erases.after {x : Executor} (h : Erases s t) (hs : Exclusive x s) (ms : List Move) :
    Erases (s.after ms) (t.after (s.erased ms)) := by
  induction ms generalizing s t with
  | nil => exact h
  | cons m ms ih =>
    have hstep : Erases (s.move m) (t.after (s.kept m)) := by
      cases m with
      | ask q => exact h.ask q
      | event i e => exact h.event hs.rejected i e
    have hrest := ih hstep (hs.move m)
    show Erases ((s.move m).after ms) (t.after (s.kept m ++ (s.move m).erased ms))
    rw [System.after, System.after, List.foldl_append]
    exact hrest

end

/-! ## Observers -/

/-- What a stream hears while signals are published. -/
theorem shown_heard {rules : Channel.Rules Line Signal} (hq : rules.Quiet) {id : Nat} (ss : List Signal)
    {b : Channel.Board Line Signal} (h : Channel.Listens b .logs id) :
    Channel.Hears .logs id b ((entriesOf ss).map .entry) (ss.foldl (showOn rules) b) := by
  induction ss generalizing b with
  | nil => exact h.refl
  | cons s ss ih =>
    cases s with
    | entry e =>
      have hfirst := Channel.publish_heard hq .logs (.entry e) h
      rw [if_pos rfl] at hfirst
      exact hfirst.trans (ih hfirst.listens)
    | node id' =>
      have hfirst := Channel.set_heard hq (j := .active) (by decide) (.node id') h
      exact hfirst.trans (ih hfirst.listens)

/-! ## The whole system -/

/-- What holds of a system whose executor was free at first, when it has moved in any way. -/
structure Exclusion (x : Executor) (ms : List Move) (s : System) : Prop where
  /-- At most one call is unfinished. -/
  single : s.jobs.countP (·.unfinished) ≤ 1
  /-- The lock is held exactly while an accepted call is unfinished. -/
  lock : s.executor.locked = true ↔ ∃ j ∈ s.jobs, j.accepted = true ∧ j.unfinished = true
  /-- A call that finds the lock held is over at once, with a result that tells nothing. Of
      the executor it changes the logger only, and it makes no HTTP call. -/
  turnedDown : s.executor.locked = true → ∀ q, ∃ l,
    s.move (.ask q) = ⟨s.executor.logging l, s.jobs ++ [⟨false, .inr (.finished ⟨"", .rejected, 0, []⟩), [], []⟩]⟩
  /-- Accepted calls are not rejected, and their results tell what they have kept. -/
  results : ∀ j ∈ s.accepted, ∀ r, j.state = .inr (.finished r) → r.entries = j.logs ∧ r.outcome ≠ .rejected
  /-- All that was done to the board is to publish; on `logs`, what the accepted calls have kept, one after another. -/
  published : ∃ ss, s.executor.board = ss.foldl (showOn x.rules) x.board ∧
    entriesOf ss = s.accepted.flatMap (·.logs)
  /-- So that is what a stream has heard that listens to `logs`. -/
  heard : x.rules.Quiet → ∀ id, Channel.Listens x.board .logs id →
    s.executor.board.queue id = x.board.queue id ++ (s.accepted.flatMap (·.logs)).map .entry
  /-- Without the rejected calls the accepted ones are the same. -/
  alone : ((System.start x).after ((System.start x).erased ms)).jobs = s.accepted

theorem Held.single {b : Bool} {js : List Job} (h : Held b js) : js.countP (·.unfinished) ≤ 1 := by
  have hnone : ∀ ks : List Job, (∀ k ∈ ks, k.unfinished = false) → ks.countP (·.unfinished) = 0 := fun ks hks =>
    List.countP_eq_zero.mpr fun k hk => by rw [hks k hk]; decide
  cases h with
  | free hf =>
    rw [hnone _ hf]
    exact Nat.zero_le 1
  | @taken before after j p hb ha _ hs _ =>
    have hafter : ∀ k ∈ after, k.unfinished = false := fun k hk => by rw [ha k hk]; rfl
    have hone : (before ++ j :: after).countP (·.unfinished) = 1 := by
      rw [List.countP_append, List.countP_cons_of_pos (unfinished_inl hs), hnone _ hb, hnone _ hafter]
    exact Nat.le_of_eq hone

theorem Held.lock {b : Bool} {js : List Job} (h : Held b js) :
    b = true ↔ ∃ j ∈ js, j.accepted = true ∧ j.unfinished = true := by
  cases h with
  | free hf =>
    refine ⟨(by intro h; cases h), ?_⟩
    rintro ⟨j, hj, -, hunfinished⟩
    rw [hf j hj] at hunfinished
    cases hunfinished
  | taken _ _ hj hs _ =>
    exact ⟨fun _ => ⟨_, List.mem_append_right _ List.mem_cons_self, hj, unfinished_inl hs⟩, fun _ => rfl⟩

/-- In whatever order calls and events come, runs exclude one another. -/
theorem runs_exclude_one_another {x : Executor} (hx : x.locked = false) (ms : List Move) :
    Exclusion x ms ((System.start x).after ms) := by
  have h := (start_exclusive hx).after ms
  obtain ⟨ss, hss, he⟩ := h.shown
  refine ⟨h.held.single, h.held.lock, fun hs q => ?_, fun j hj r hr => ?_, ⟨ss, hss.board, he⟩, fun hq id hid => ?_, ?_⟩
  · exact ⟨(refused q.caller q.flow _).logger, by rw [System.move, job_locked hs]; rfl⟩
  · obtain ⟨hmem, haccepted⟩ := List.mem_filter.mp hj
    exact (h.told j hmem haccepted).done r hr
  · rw [hss.board, ← he]
    exact (shown_heard hq ss hid).queue
  · have herases : Erases (.start x) (.start x) := ⟨rfl, x.logger, rfl⟩
    exact (herases.after (start_exclusive hx) ms).jobs

/-- A call that comes while another one is on its way is rejected. -/
theorem exclusion_of_two_calls :
    let flow : Flow := ⟨"f", "One", none, [⟨"s", .start, .origin, ⟨"Start", none, none, none, none⟩⟩], []⟩
    let x : Executor := .create ⟨.scalar (.int 0), .scalar (.int 10)⟩ ⟨0, []⟩ .empty
    let ms : List Move := [.ask ⟨.none, "a", flow, []⟩, .ask ⟨.none, "b", flow, []⟩, .event 0 .step]
    ((System.start x).after ms).jobs.map (·.accepted) = [true, false] ∧
      Exclusion x ms ((System.start x).after ms) :=
  ⟨rfl, runs_exclude_one_another rfl _⟩

end StepFlow.Run
