/-
  StepFlow.Proofs.Channel.Receiving — what a subscriber receives of its channel, whatever the
  others do.

  Callbacks may subscribe and unsubscribe, open and close streams, and fail
  (`Action.passive`). Each subscription of a callback is granted by a handle, and no handle is
  ever taken back; so it can be told from two boards whether a subscriber that was subscribed
  once has stayed so in between (`Stays`): none has been granted since, and it is still there.
  A value is handed to the subscribers of the moment, so one that stays receives it once, also
  if the others go, come or fail while it is published.

  Proved:
  (1) `publish_passes`: a value that is published is received as often as one is subscribed.
  (2) `Stays.middle`, `Stays.rest`: what stays from one board to another stays up to every board
      between, and from there on.
-/

import StepFlow.Proofs.Channel.Signals

namespace StepFlow.Channel

variable {ι α : Type} [DecidableEq ι]

namespace Action

/-- Actions that publish nothing and take nothing from streams. -/
def passive : Action ι α → Bool
  | .subscribe .. | .unsubscribe _ | .openStream .. | .closeStream _ | .fail | .failAt _ => true
  | .publish .. | .set .. | .take _ => false

end Action

def Rules.Passive (rules : Rules ι α) : Prop := ∀ name, ∀ a ∈ rules.program name, a.passive = true

namespace Board

/-- How often a callback has been subscribed to a channel. A stream is when it is opened, and never again. -/
def grants (b : Board ι α) (i : ι) : Subscriber → Nat
  | .callback name => b.handles.countP fun h => decide (h.2 = (i, .callback name))
  | .stream _ => 0

/-- What a subscriber has received on a channel; all that is queued in a stream. -/
def received (b : Board ι α) (i : ι) : Subscriber → List α
  | .callback name => (b.deliveries.filter fun d => decide (d.callback = name ∧ d.channel = i)).map (·.value)
  | .stream id => b.queue id

/-- A stream has been opened. -/
def Knows (b : Board ι α) (s : Subscriber) : Prop := ∀ id, s = .stream id → id < b.streams.length

end Board

/-- The subscriber is subscribed to the channel once, on both boards, and has not been
    subscribed in between. A stream has been opened, and on this channel only. -/
structure Stays (i : ι) (s : Subscriber) (b c : Board ι α) : Prop where
  once : b.subscriptions.count (i, s) = 1
  still : c.subscriptions.count (i, s) = 1
  again : c.grants i s = b.grants i s
  opened : b.Knows s
  elsewhere : ∀ id, s = .stream id → ∀ j, j ≠ i → b.subscriptions.count (j, s) = 0

/-- What becomes of a subscriber, who receives these values on the channel meanwhile. -/
structure Passes (i : ι) (s : Subscriber) (b : Board ι α) (vs : List α) (c : Board ι α) : Prop where
  streams : b.streams.length ≤ c.streams.length
  grants : ∀ j, b.grants j s ≤ c.grants j s
  /-- Without being subscribed, it is subscribed no more often than before. -/
  count : ∀ j, c.subscriptions.count (j, s) + b.grants j s ≤ b.subscriptions.count (j, s) + c.grants j s
  received : c.received i s = b.received i s ++ vs

section

variable {i : ι} {s : Subscriber} {b c d : Board ι α} {vs ws : List α}

theorem Passes.refl (i : ι) (s : Subscriber) (b : Board ι α) : Passes i s b [] b :=
  ⟨Nat.le_refl _, fun _ => Nat.le_refl _, fun _ => Nat.le_refl _, (List.append_nil _).symm⟩

theorem Passes.trans (h : Passes i s b vs c) (h' : Passes i s c ws d) : Passes i s b (vs ++ ws) d := by
  refine ⟨Nat.le_trans h.streams h'.streams, fun j => Nat.le_trans (h.grants j) (h'.grants j), fun j => ?_, ?_⟩
  · have hfirst := h.count j
    have hsecond := h'.count j
    omega
  · rw [h'.received, h.received, List.append_assoc]

theorem Passes.knows (h : Passes i s b vs c) (hb : b.Knows s) : c.Knows s :=
  fun id hid => Nat.lt_of_lt_of_le (hb id hid) h.streams

/-- No stream comes to listen to another channel. -/
theorem Passes.elsewhere (h : Passes i s b vs c)
    (hb : ∀ id, s = .stream id → ∀ j, j ≠ i → b.subscriptions.count (j, s) = 0) :
    ∀ id, s = .stream id → ∀ j, j ≠ i → c.subscriptions.count (j, s) = 0 := by
  intro id hid j hj
  have hcount := h.count j
  have hnone := hb id hid j hj
  subst hid
  simp only [Board.grants] at hcount
  omega

/-- What stays up to a later board stays up to one before it. -/
theorem Stays.middle (h : Stays i s b d) (hbc : Passes i s b vs c) (hcd : Passes i s c ws d) : Stays i s b c := by
  have hfirst := hbc.grants i
  have hsecond := hcd.grants i
  have hcount := hbc.count i
  have hrest := hcd.count i
  have honce := h.once
  have hstill := h.still
  have hagain := h.again
  exact ⟨honce, by omega, by omega, h.opened, h.elsewhere⟩

/-- So it also stays from there on. -/
theorem Stays.rest (h : Stays i s b d) (hbc : Passes i s b vs c) (hcd : Passes i s c ws d) : Stays i s c d := by
  have hmiddle := h.middle hbc hcd
  exact ⟨hmiddle.still, h.still, h.again.trans hmiddle.again.symm, hbc.knows h.opened, hbc.elsewhere h.elsewhere⟩

/-! ## Actions -/

theorem subscribe_passes (b : Board ι α) (j : ι) (name handle : String) :
    Passes i s b [] ((b.subscribe j (.callback name)).grant handle j (.callback name)) := by
  refine ⟨Nat.le_refl _, fun k => ?_, fun k => ?_, ?_⟩
  · cases s with
    | stream id => exact Nat.le_refl _
    | callback other =>
      simp only [Board.grants, Board.grant, Board.subscribe, List.countP_cons]
      omega
  · cases s with
    | stream id =>
      simp [Board.grants, Board.grant, Board.subscribe, List.count_append]
    | callback other =>
      simp only [Board.grants, Board.grant, Board.subscribe, List.countP_cons, List.count_append, List.count_singleton]
      by_cases he : (j, Subscriber.callback name) = (k, .callback other)
      · simp [he]
        omega
      · simp [he]
  · cases s <;> exact (List.append_nil _).symm

theorem remove_passes (b : Board ι α) (j : ι) (t : Subscriber) : Passes i s b [] (b.remove j t) := by
  refine ⟨Nat.le_refl _, fun k => ?_, fun k => ?_, ?_⟩
  · cases s <;> exact Nat.le_refl _
  · have hgrants : (b.remove j t).grants k s = b.grants k s := by cases s <;> rfl
    have hcount : (b.remove j t).subscriptions.count (k, s) ≤ b.subscriptions.count (k, s) :=
      List.Sublist.count_le _ List.erase_sublist
    omega
  · cases s <;> exact (List.append_nil _).symm

theorem openStream_passes (hb : b.Knows s) (j : ι) (name : String) : Passes i s b [] (b.openStream j name) := by
  have hnew : Subscriber.stream b.streams.length ≠ s := by
    rintro rfl
    exact Nat.lt_irrefl _ (hb _ rfl)
  have hgrants : ∀ k, (b.openStream j name).grants k s = b.grants k s := fun k => by cases s <;> rfl
  refine ⟨?_, fun k => Nat.le_of_eq (hgrants k).symm, fun k => ?_, ?_⟩
  · simp only [Board.openStream, List.length_append]
    exact Nat.le_add_right _ _
  · have hcount : (b.openStream j name).subscriptions.count (k, s) = b.subscriptions.count (k, s) := by
      have hne : (j, Subscriber.stream b.streams.length) ≠ (k, s) := fun he => hnew (Prod.mk.inj he).2
      simp only [Board.openStream, Board.subscribe, List.count_append, List.count_singleton, beq_iff_eq, hne, if_false,
        Nat.add_zero]
    rw [hgrants k, hcount]
  · cases s with
    | callback other => exact (List.append_nil _).symm
    | stream id =>
      have hid := hb id rfl
      simp only [Board.received, Board.queue, Board.openStream, List.getElem?_append_left hid, List.append_nil]

/-- A passive action is performed, and nothing is received of it. -/
theorem performBy_passes (rules : Rules ι α) (perform : Performer ι α) (received : Option α) {a : Action ι α}
    (ha : a.passive = true) (hb : b.Knows s) : Passes i s b [] ((performBy rules perform received a).run.run b).2 := by
  cases a with
  | subscribe j name handle => exact subscribe_passes b j name handle
  | unsubscribe handle =>
    rw [performBy_unsubscribe]
    cases b.handles.lookup handle with
    | none => exact .refl i s b
    | some p => exact remove_passes b p.1 p.2
  | openStream j name => exact openStream_passes hb j name
  | closeStream name =>
    rw [performBy_closeStream]
    split
    · exact .refl i s b
    · exact remove_passes b _ _
  | fail => exact .refl i s b
  | failAt which =>
    rw [performBy_failAt]
    split
    · exact .refl i s b
    · exact .refl i s b
  | publish | set | take => cases ha

theorem performWithin_passes (rules : Rules ι α) (depth : Nat) (received : Option α) {a : Action ι α}
    (ha : a.passive = true) (hb : b.Knows s) :
    Passes i s b [] ((performWithin rules depth received a).run.run b).2 := by
  cases depth with
  | zero => exact .refl i s b
  | succ depth => exact performBy_passes rules _ received ha hb

/-! ## Publishing -/

variable {rules : Rules ι α}

theorem runProgram_passes (depth : Nat) (v : α) {as : List (Action ι α)} (ha : ∀ a ∈ as, a.passive = true)
    (hb : b.Knows s) : Passes i s b [] ((runProgram (performWithin rules depth) v as).run.run b).2 := by
  induction as generalizing b with
  | nil => exact .refl i s b
  | cons a as ih =>
    have hfirst : Passes i s b [] _ := performWithin_passes rules depth (some v) (ha a List.mem_cons_self) hb
    have hrest := ih (fun a' ha' => ha a' (List.mem_cons_of_mem a ha')) (hfirst.knows hb)
    rw [runProgram, doing_bind]
    cases ((performWithin rules depth (some v) a).run.run b).1 with
    | error m => exact hfirst
    | ok o => exact hfirst.trans hrest

/-- Whether what a subscriber is handed on the second channel counts for the first one. -/
def Subscriber.hears (i j : ι) : Subscriber → Bool
  | .callback _ => decide (j = i)
  | .stream _ => true

theorem deliver_passes (b : Board ι α) (j : ι) (v : α) (name : String) :
    Passes i s b (if .callback name = s ∧ s.hears i j then [v] else []) (b.deliver name j v) := by
  refine ⟨Nat.le_refl _, fun k => ?_, fun k => ?_, ?_⟩
  · cases s <;> exact Nat.le_refl _
  · cases s <;> exact Nat.le_refl _
  · cases s with
    | stream id =>
      rw [if_neg (fun h => by cases h.1), List.append_nil]
      rfl
    | callback other =>
      simp only [Board.received, Board.deliver, List.filter_append, List.map_append]
      by_cases h : name = other ∧ j = i
      · obtain ⟨rfl, rfl⟩ := h
        simp [Subscriber.hears]
      · have hnot : ¬ (Subscriber.callback name = .callback other ∧ (Subscriber.callback other).hears i j = true) := by
          rintro ⟨hname, hj⟩
          exact h ⟨Subscriber.callback.inj hname, of_decide_eq_true hj⟩
        rw [if_neg hnot, List.filter_cons_of_neg (by simpa using h)]
        rfl

theorem enqueue_passes (hb : b.Knows s) (j : ι) (v : α) (id : Nat) :
    Passes i s b (if .stream id = s ∧ s.hears i j then [v] else []) (b.enqueue id v) := by
  refine ⟨?_, fun k => ?_, fun k => ?_, ?_⟩
  · simp [Board.enqueue, Board.mapStream]
  · cases s <;> exact Nat.le_refl _
  · cases s <;> exact Nat.le_refl _
  · cases s with
    | callback other =>
      rw [if_neg (fun h => by cases h.1), List.append_nil]
      rfl
    | stream other =>
      have hother := hb other rfl
      simp only [Board.received, Board.queue, Board.enqueue, Board.mapStream, List.getElem?_modify, Subscriber.hears,
        and_true, Subscriber.stream.injEq]
      by_cases h : id = other
      · subst h
        simp [List.getElem?_eq_getElem hother]
      · simp [h]

theorem noteFailure_passes (b : Board ι α) (j : ι) : Passes i s b [] (b.noteFailure j) := by
  refine ⟨Nat.le_refl _, fun k => ?_, fun k => ?_, ?_⟩
  · cases s <;> exact Nat.le_refl _
  · cases s <;> exact Nat.le_refl _
  · cases s <;> exact (List.append_nil _).symm

theorem handTo_passes (hq : rules.Passive) (depth : Nat) (j : ι) (v : α) (t : Subscriber) (hb : b.Knows s) :
    Passes i s b (if t = s ∧ s.hears i j then [v] else [])
      ((handTo rules (performWithin rules depth) j v t).run b).2 := by
  cases t with
  | stream id => exact enqueue_passes hb j v id
  | callback name =>
    have hdelivered : Passes i s b _ (b.deliver name j v) := deliver_passes b j v name
    have hanswered : Passes i s (b.deliver name j v) []
        ((runProgram (performWithin rules depth) v (rules.program name)).run.run (b.deliver name j v)).2 :=
      runProgram_passes depth v (hq name) (hdelivered.knows hb)
    have hprogram := hdelivered.trans hanswered
    rw [List.append_nil] at hprogram
    rw [handTo_callback]
    cases ((runProgram (performWithin rules depth) v (rules.program name)).run.run (b.deliver name j v)).1 with
    | ok u => exact hprogram
    | error m =>
      have hnoted := hprogram.trans (noteFailure_passes _ j)
      rw [List.append_nil] at hnoted
      exact hnoted

theorem handToAll_passes (hq : rules.Passive) (depth : Nat) (j : ι) (v : α) (ts : List Subscriber) (hb : b.Knows s) :
    Passes i s b (List.replicate (if s.hears i j then ts.count s else 0) v)
      ((handToAll rules (performWithin rules depth) j v ts).run b).2 := by
  induction ts generalizing b with
  | nil =>
    simp only [List.count_nil, ite_self]
    exact .refl i s b
  | cons t ts ih =>
    have hfirst : Passes i s b _ _ := handTo_passes hq depth j v t hb
    have hall := hfirst.trans (ih (hfirst.knows hb))
    by_cases hh : s.hears i j = true
    · by_cases ht : t = s
      · subst ht
        rw [if_pos ⟨rfl, hh⟩, if_pos hh] at hall
        rw [if_pos hh, List.count_cons_self, List.replicate_succ]
        exact hall
      · rw [if_neg (fun h => ht h.1), if_pos hh] at hall
        rw [if_pos hh, List.count_cons_of_ne ht]
        exact hall
    · rw [if_neg (fun h => hh h.2), if_neg hh] at hall
      rw [if_neg hh]
      exact hall

/-- A value is received as often as the subscriber is subscribed when it is published. -/
theorem publish_passes (hq : rules.Passive) (j : ι) (v : α) (hb : b.Knows s) :
    Passes i s b (List.replicate (if s.hears i j then b.subscriptions.count (j, s) else 0) v)
      ((publish rules j v).run b).2 := by
  have hall : Passes i s b _ _ := handToAll_passes hq nestingLimit j v (b.subscribers j) hb
  rw [subscribers_count] at hall
  exact hall

theorem set_passes (hq : rules.Passive) {j : ι} (hj : s.hears i j = true → b.subscriptions.count (j, s) = 0) (v : α)
    (hb : b.Knows s) : Passes i s b [] ((Channel.perform rules (.set j v)).run.run b).2 := by
  rw [set_board]
  cases b.value? j with
  | none => exact .refl i s b
  | some held =>
    dsimp only
    split
    · exact .refl i s b
    · have hvalue : Passes i s b [] (b.setValue j v) := by
        refine ⟨Nat.le_refl _, fun k => ?_, fun k => ?_, ?_⟩
        · cases s <;> exact Nat.le_refl _
        · cases s <;> exact Nat.le_refl _
        · cases s <;> exact (List.append_nil _).symm
      have hpublished : Passes i s (b.setValue j v) _ _ := publish_passes hq j v (hvalue.knows hb)
      have hcount : (if s.hears i j then (b.setValue j v).subscriptions.count (j, s) else 0) = 0 := by
        split
        · exact hj ‹_›
        · rfl
      rw [hcount] at hpublished
      exact hvalue.trans hpublished

end

end StepFlow.Channel
