/-
  StepFlow.Proofs.Channel.Listening — what a stream hears of its channel.

  A stream listens to a channel (`Listens`) if it is subscribed there once and nowhere else,
  and no handle stands for it. It goes on listening whatever callbacks do, as long as they do
  not publish, and neither take from streams nor close any (`Action.quiet`).

  Proved:
  (1) `publish_heard`: a value published on its channel is queued once; one published on
      another channel is not.
  (2) `set_heard`: nor is the value that another channel's signal is set to.
-/

import Mathlib
import StepFlow.Channel.Board

namespace StepFlow.Channel

variable {ι α : Type} [DecidableEq ι]

/-- What is queued in a stream. -/
def Board.queue (b : Board ι α) (id : Nat) : List α := ((b.streams[id]?).map (·.queue)).getD []

structure Listens (b : Board ι α) (i : ι) (id : Nat) : Prop where
  opened : id < b.streams.length
  once : ∀ j, b.subscriptions.count (j, .stream id) = if j = i then 1 else 0
  held : ∀ h ∈ b.handles, h.2.2 ≠ .stream id

namespace Action

/-- Actions that neither publish nor touch streams that are open. -/
def quiet : Action ι α → Bool
  | .subscribe .. | .unsubscribe _ | .openStream .. | .fail | .failAt _ => true
  | .publish .. | .set .. | .take _ | .closeStream _ => false

end Action

def Rules.Quiet (rules : Rules ι α) : Prop := ∀ name, ∀ a ∈ rules.program name, a.quiet = true

/-- The stream goes on listening, and has heard these values meanwhile. -/
structure Hears (i : ι) (id : Nat) (b : Board ι α) (vs : List α) (c : Board ι α) : Prop where
  listens : Listens c i id
  queue : c.queue id = b.queue id ++ vs

theorem Listens.refl {b : Board ι α} {i : ι} {id : Nat} (h : Listens b i id) : Hears i id b [] b :=
  ⟨h, (List.append_nil _).symm⟩

theorem Hears.trans {i : ι} {id : Nat} {b c d : Board ι α} {vs ws : List α} (h : Hears i id b vs c)
    (h' : Hears i id c ws d) : Hears i id b (vs ++ ws) d :=
  ⟨h'.listens, by rw [h'.queue, h.queue, List.append_assoc]⟩

section

variable {b : Board ι α} {i : ι} {id : Nat}

/-! ## Changes of the board -/

theorem subscribers_count (b : Board ι α) (j : ι) (s : Subscriber) :
    (b.subscribers j).count s = b.subscriptions.count (j, s) := by
  unfold Board.subscribers
  induction b.subscriptions with
  | nil => rfl
  | cons p ps ih =>
    obtain ⟨k, t⟩ := p
    by_cases hk : k = j
    · subst hk
      rw [List.filterMap_cons_some (show _ = some t by simp), List.count_cons, List.count_cons, ih]
      simp
    · rw [List.filterMap_cons_none (by simp [hk]), ih, List.count_cons]
      simp [hk]

theorem subscribe_heard (h : Listens b i id) (j : ι) {s : Subscriber} (hs : s ≠ .stream id) :
    Hears i id b [] (b.subscribe j s) := by
  refine ⟨⟨h.opened, fun k => ?_, h.held⟩, (List.append_nil _).symm⟩
  have hne : (j, s) ≠ (k, .stream id) := fun he => hs (Prod.mk.inj he).2
  simp only [Board.subscribe, List.count_append, h.once k, List.count_singleton, beq_iff_eq, hne, if_false,
    Nat.add_zero]

theorem remove_heard (h : Listens b i id) (j : ι) {s : Subscriber} (hs : s ≠ .stream id) :
    Hears i id b [] (b.remove j s) := by
  refine ⟨⟨h.opened, fun k => ?_, h.held⟩, (List.append_nil _).symm⟩
  have hne : (k, .stream id) ≠ (j, s) := fun he => hs (Prod.mk.inj he).2.symm
  rw [Board.remove, List.count_erase_of_ne hne, h.once k]

theorem grant_heard (h : Listens b i id) (handle : String) (j : ι) (name : String) :
    Hears i id b [] (b.grant handle j (.callback name)) := by
  refine ⟨⟨h.opened, h.once, fun g hg => ?_⟩, (List.append_nil _).symm⟩
  rcases List.mem_cons.mp hg with rfl | hg
  · intro h
    cases h
  · exact h.held g hg

theorem openStream_heard (h : Listens b i id) (j : ι) (name : String) : Hears i id b [] (b.openStream j name) := by
  have hs : Subscriber.stream b.streams.length ≠ .stream id := by
    intro h
    cases h
    exact Nat.lt_irrefl _ h.opened
  obtain ⟨⟨hopened, honce, hheld⟩, hqueue⟩ := subscribe_heard h j hs
  refine ⟨⟨?_, honce, hheld⟩, ?_⟩
  · show id < (b.streams ++ [(⟨name, j, []⟩ : Stream ι α)]).length
    rw [List.length_append]
    exact Nat.lt_add_right _ h.opened
  · simp only [Board.queue, Board.openStream, List.getElem?_append_left h.opened, List.append_nil]

theorem enqueue_heard (h : Listens b i id) (k : Nat) (v : α) :
    Hears i id b (if k = id then [v] else []) (b.enqueue k v) := by
  refine ⟨⟨?_, h.once, h.held⟩, ?_⟩
  · simp only [Board.enqueue, Board.mapStream, List.length_modify]
    exact h.opened
  · simp only [Board.queue, Board.enqueue, Board.mapStream, List.getElem?_modify]
    by_cases hk : k = id
    · subst hk
      simp [List.getElem?_eq_getElem h.opened]
    · simp [hk]

/-! ## Callbacks -/

variable {rules : Rules ι α}

omit [DecidableEq ι] in
theorem doing_bind {β γ : Type} (a : Doing ι α β) (k : β → Doing ι α γ) (b : Board ι α) :
    (a >>= k).run.run b =
      (match (a.run.run b).1 with
        | .ok r => (k r).run
        | .error m => pure (.error m) : StateM (Board ι α) (Except Mishap γ)).run (a.run.run b).2 := by
  rw [ExceptT.run_bind, StateT.run_bind]
  generalize a.run.run b = r
  obtain ⟨o, c⟩ := r
  cases o <;> rfl

/-- Quiet actions are performed without the stream hearing anything. -/
def Calm (perform : Performer ι α) (i : ι) (id : Nat) : Prop :=
  ∀ received a, a.quiet = true → ∀ b, Listens b i id → Hears i id b [] ((perform received a).run.run b).2

theorem performBy_unsubscribe (rules : Rules ι α) (perform : Performer ι α) (received : Option α) (handle : String)
    (b : Board ι α) :
    (performBy rules perform received (.unsubscribe handle)).run.run b =
      ((match b.handles.lookup handle with
        | some (j, s) => do
          set (b.remove j s)
          pure none
        | none => throw (.unknown handle) : Doing ι α (Option α)).run.run b) := rfl

theorem performBy_failAt (rules : Rules ι α) (perform : Performer ι α) (received : Option α) (which : Nat → Bool)
    (b : Board ι α) :
    (performBy rules perform received (.failAt which)).run.run b =
      (if which b.deliveries.length then (.error .raised, b) else (.ok none, b)) := by
  show ((if which b.deliveries.length then throw .raised else pure none : Doing ι α (Option α)).run.run b) = _
  split
  · rfl
  · rfl

theorem performBy_calm (rules : Rules ι α) (perform : Performer ι α) : Calm (performBy rules perform) i id := by
  intro received a ha b h
  cases a with
  | subscribe j name handle =>
    have hsubscribed := subscribe_heard h j (s := .callback name) (by intro hs; cases hs)
    exact hsubscribed.trans (grant_heard hsubscribed.listens handle j name)
  | unsubscribe handle =>
    rw [performBy_unsubscribe]
    cases hl : b.handles.lookup handle with
    | none => exact h.refl
    | some p =>
      obtain ⟨j, s⟩ := p
      obtain ⟨before, after, heq, -⟩ := List.lookup_eq_some_iff.mp hl
      have hmem : (handle, j, s) ∈ b.handles := by
        rw [heq]
        exact List.mem_append_right before List.mem_cons_self
      exact remove_heard h j (h.held _ hmem)
  | openStream j name => exact openStream_heard h j name
  | fail => exact h.refl
  | failAt which =>
    rw [performBy_failAt]
    split
    · exact h.refl
    · exact h.refl
  | publish | set | take | closeStream => cases ha

theorem performWithin_calm (rules : Rules ι α) (depth : Nat) : Calm (performWithin rules depth) i id := by
  cases depth with
  | zero => exact fun _ _ _ _ h => h.refl
  | succ depth => exact performBy_calm rules _

variable {perform : Performer ι α}

theorem runProgram_heard (hp : Calm perform i id) (v : α) {as : List (Action ι α)} (ha : ∀ a ∈ as, a.quiet = true)
    (h : Listens b i id) : Hears i id b [] ((runProgram perform v as).run.run b).2 := by
  induction as generalizing b with
  | nil => exact h.refl
  | cons a as ih =>
    have hfirst := hp (some v) a (ha a List.mem_cons_self) b h
    have hrest := ih (fun a' ha' => ha a' (List.mem_cons_of_mem a ha')) hfirst.listens
    rw [runProgram, doing_bind]
    cases ((perform (some v) a).run.run b).1 with
    | error m => exact hfirst
    | ok o => exact hfirst.trans hrest

/-! ## Publishing -/

variable {v : α}

theorem handTo_callback {κ : Type} (rules : Rules κ α) (perform : Performer κ α) (j : κ) (v : α) (name : String)
    (b : Board κ α) :
    (handTo rules perform j v (.callback name)).run b =
      ((match ((runProgram perform v (rules.program name)).run.run (b.deliver name j v)).1 with
        | .ok () => pure ()
        | .error _ => modify (·.noteFailure j) : StateM (Board κ α) Unit).run
          ((runProgram perform v (rules.program name)).run.run (b.deliver name j v)).2) := rfl

theorem handTo_heard (hp : Calm perform i id) (hq : rules.Quiet) (j : ι) (s : Subscriber) (h : Listens b i id) :
    Hears i id b (if s = .stream id then [v] else []) ((handTo rules perform j v s).run b).2 := by
  cases s with
  | stream k =>
    have henqueue := enqueue_heard h k v
    by_cases hk : k = id
    · subst hk
      rw [if_pos rfl] at henqueue ⊢
      exact henqueue
    · rw [if_neg hk] at henqueue
      rw [if_neg (fun he => hk (Subscriber.stream.inj he))]
      exact henqueue
  | callback name =>
    rw [if_neg (by intro h; cases h)]
    have hdelivered : Listens (b.deliver name j v) i id := ⟨h.opened, h.once, h.held⟩
    have hprogram := runProgram_heard hp v (hq name) hdelivered
    rw [handTo_callback]
    cases ((runProgram perform v (rules.program name)).run.run (b.deliver name j v)).1 with
    | ok u => exact ⟨hprogram.listens, hprogram.queue⟩
    | error m => exact ⟨⟨hprogram.listens.opened, hprogram.listens.once, hprogram.listens.held⟩, hprogram.queue⟩

theorem handToAll_heard (hp : Calm perform i id) (hq : rules.Quiet) (j : ι) (ss : List Subscriber)
    (h : Listens b i id) :
    Hears i id b (List.replicate (ss.count (.stream id)) v) ((handToAll rules perform j v ss).run b).2 := by
  induction ss generalizing b with
  | nil => exact h.refl
  | cons s ss ih =>
    have hfirst := handTo_heard (v := v) hp hq j s h
    have hall := hfirst.trans (ih hfirst.listens)
    by_cases hs : s = .stream id
    · rw [if_pos hs] at hall
      subst hs
      rw [List.count_cons_self, List.replicate_succ]
      exact hall
    · rw [if_neg hs] at hall
      rw [List.count_cons_of_ne hs]
      exact hall

theorem publishBy_heard (hp : Calm perform i id) (hq : rules.Quiet) (j : ι) (h : Listens b i id) :
    Hears i id b (if j = i then [v] else []) ((publishBy rules perform j v).run b).2 := by
  have hall := handToAll_heard (v := v) hp hq j (b.subscribers j) h
  rw [subscribers_count, h.once j] at hall
  by_cases hj : j = i
  · rw [if_pos hj] at hall ⊢
    exact hall
  · rw [if_neg hj] at hall ⊢
    exact hall

theorem publish_heard (hq : rules.Quiet) (j : ι) (v : α) (h : Listens b i id) :
    Hears i id b (if j = i then [v] else []) ((publish rules j v).run b).2 :=
  publishBy_heard (performWithin_calm rules nestingLimit) hq j h

/-- Setting a signal publishes the value, unless the signal holds it already. -/
theorem set_run (rules : Rules ι α) (j : ι) (v : α) (b : Board ι α) :
    (Channel.perform rules (.set j v)).run.run b =
      (match b.value? j with
        | none => throw .noSignal
        | some held =>
          if rules.same v held then pure none
          else do
            set (b.setValue j v)
            publishBy rules (performWithin rules nestingLimit) j v
            pure none : Doing ι α (Option α)).run.run b := rfl

/-- The board after a signal is set: as it was, or with the new value published. -/
theorem set_board (rules : Rules ι α) (j : ι) (v : α) (b : Board ι α) :
    ((Channel.perform rules (.set j v)).run.run b).2 =
      (match b.value? j with
        | none => b
        | some held => if rules.same v held then b else ((publish rules j v).run (b.setValue j v)).2) := by
  rw [set_run]
  cases b.value? j with
  | none => rfl
  | some held => dsimp only; split <;> rfl

theorem set_heard (hq : rules.Quiet) {j : ι} (hj : j ≠ i) (v : α) (h : Listens b i id) :
    Hears i id b [] ((Channel.perform rules (.set j v)).run.run b).2 := by
  rw [set_board]
  cases b.value? j with
  | none => exact h.refl
  | some held =>
    dsimp only
    by_cases hs : rules.same v held = true
    · rw [if_pos hs]
      exact h.refl
    · rw [if_neg hs]
      have hvalue : Listens (b.setValue j v) i id := ⟨h.opened, h.once, h.held⟩
      have hpublish := publish_heard hq j v hvalue
      rw [if_neg hj] at hpublish
      exact ⟨hpublish.listens, hpublish.queue⟩

end

end StepFlow.Channel
