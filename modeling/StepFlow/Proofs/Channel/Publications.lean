/-
  StepFlow.Proofs.Channel.Publications — what a signal publishes that callbacks leave alone.

  Callbacks may subscribe, publish on other channels, and fail, at any depth. If none of them
  sets the signal (`Rules.Spares`), it is set from outside only, so it publishes what it is set
  to from there, but for a value that it holds already. If none of them publishes on it either
  (`Rules.Honest`), that is all that is published there.

  Proved:
  (1) `Happens.lacks`: what no callback begins does not happen in the turns of a round.
  (2) `after_publishes`: the signal is set to the values that actions from outside publish, and
      to no others; an observer that stays receives each of them once, in order.
-/

import StepFlow.Proofs.Channel.Overtaking

namespace StepFlow.Channel

variable {ι α : Type} [DecidableEq ι]

/-! ## Moments that callbacks do not bring about -/

/-- What is published on a channel. -/
def Moment.published? (i : ι) : Moment ι α → Option α
  | .begun j v _ => if j = i then some v else none
  | .handed .. | .taken .. => none

/-- What is said of beginnings only. -/
structure Begins (f : Moment ι α → Option α) : Prop where
  handed : ∀ s j v, f (.handed s j v) = none
  taken : ∀ id v, f (.taken id v) = none

/-- The event does not begin with such a moment. -/
def Event.Lacks (f : Moment ι α → Option α) : Event ι α → Prop
  | .round j v sets _ => f (.begun j v sets) = none
  | .taking .. => True

def Account.Lacks (f : Moment ι α → Option α) : Account ι α → Prop
  | .events es => ∀ e ∈ es, e.Lacks f
  | .turns .. => True

/-- No action of a callback begins with such a moment. -/
def Rules.Lacks (rules : Rules ι α) (f : Moment ι α → Option α) : Prop :=
  ∀ name, ∀ a ∈ rules.program name, ∀ es, a.Brings es → ∀ e ∈ es, e.Lacks f

theorem set_begins (i : ι) : Begins (Moment.set? (α := α) i) := ⟨fun _ _ _ => rfl, fun _ _ => rfl⟩

theorem published_begins (i : ι) : Begins (Moment.published? (α := α) i) := ⟨fun _ _ _ => rfl, fun _ _ => rfl⟩

/-- To set a signal is to publish on it. -/
theorem Event.Lacks.set {i : ι} {e : Event ι α} (h : e.Lacks (Moment.published? i)) : e.Lacks (Moment.set? i) := by
  cases e with
  | taking => trivial
  | round j v sets ts =>
    cases sets with
    | false => rfl
    | true => exact h

section

variable {rules : Rules ι α} {i : ι} {f : Moment ι α → Option α} {b c d : Board ι α}

/-- What does not begin from outside, and with no callback, does not happen at any depth. -/
theorem Happens.lacks (hf : Begins f) (hq : rules.Lacks f) {a : Account ι α}
    (h : Happens (rules.Follows Action.Brings) b a c) (ha : a.Lacks f) : a.moments.filterMap f = [] := by
  induction h with
  | nothing | finished => rfl
  | alter _ _ ih => exact ih ha
  | @take _ _ id _ v _ es _ _ _ ih =>
    exact (List.filterMap_cons_none (hf.taken id v)).trans (ih fun e he => ha e (List.mem_cons_of_mem _ he))
  | publish _ _ _ ih ih' | set _ _ _ _ ih ih' =>
    have hhead := ha _ List.mem_cons_self
    have htail := ih' fun e he => ha e (List.mem_cons_of_mem _ he)
    simp only [Account.moments] at ih htail
    rw [Account.moments, eventsMoments, List.filterMap_append, Event.moments, List.filterMap_cons_none hhead,
      ih trivial, htail]
    rfl
  | @queue _ _ j v _ id _ ih => exact (List.filterMap_cons_none (hf.handed (.stream id) j v)).trans (ih trivial)
  | @call _ _ _ _ j v name _ _ hmay _ _ _ ih ih' =>
    have hown := ih (follows_all hmay (hq name))
    have hothers := ih' trivial
    simp only [Account.moments] at hown hothers
    rw [Account.moments, turnsMoments, List.filterMap_cons_none (hf.handed (.callback name) j v), List.filterMap_append,
      hown, hothers]
    rfl

/-! ## Actions that leave a signal alone -/

/-- Actions that neither set the signal nor publish on it begin no round there. -/
theorem brings_lacks {a : Action ι α} {es : List (Event ι α)} (h : a.Brings es) (hs : a.sets i = false)
    (hp : a.publishesOn i = false) : ∀ e ∈ es, e.Lacks (Moment.published? i) := by
  cases h with
  | nothing => exact nofun
  | publish j v guard ts => exact fun e he => List.mem_singleton.mp he ▸ if_neg (of_decide_eq_false hp)
  | set j v ts => exact fun e he => List.mem_singleton.mp he ▸ if_neg (of_decide_eq_false hs)
  | take name id v => exact fun e he => List.mem_singleton.mp he ▸ trivial

theorem spares_lacks (hq : rules.Spares i) : rules.Lacks (Moment.set? i) := by
  intro name a ha es hbrings e he
  cases hbrings with
  | nothing => exact nomatch he
  | publish j v guard ts => exact List.mem_singleton.mp he ▸ rfl
  | set j v ts => exact List.mem_singleton.mp he ▸ if_neg (of_decide_eq_false (hq name _ ha))
  | take name id v => exact List.mem_singleton.mp he ▸ trivial

theorem honest_lacks (hq : rules.Spares i) (hh : rules.Honest i) : rules.Lacks (Moment.published? i) :=
  fun name a ha _ hbrings => brings_lacks hbrings (hq name a ha) (hh name a ha)

mutual

theorem event_roundless : ∀ e : Event ι α, e.moments.filterMap (Moment.published? i) = [] → e.roundsOn i = []
  | .round j v sets ts, h => by
    by_cases hj : j = i
    · have hbegun : Moment.published? i (.begun j v sets) = some v := if_pos hj
      rw [Event.moments, List.filterMap_cons_some hbegun] at h
      exact absurd h (List.cons_ne_nil _ _)
    · have hbegun : Moment.published? i (.begun j v sets) = none := if_neg hj
      rw [Event.moments, List.filterMap_cons_none hbegun] at h
      rw [Event.roundsOn, if_neg hj]
      exact turns_roundless j v ts h
  | .taking .., _ => rfl

theorem turns_roundless (j : ι) (v : α) : ∀ ts : List (Turn ι α),
    (turnsMoments j v ts).filterMap (Moment.published? i) = [] → turnsRounds i ts = []
  | [], _ => rfl
  | (s, es) :: ts, h => by
    have hhanded : Moment.published? i (.handed s j v) = none := rfl
    rw [turnsMoments, List.filterMap_cons_none hhanded, List.filterMap_append, List.append_eq_nil_iff] at h
    rw [turnsRounds, events_roundless es h.1, turns_roundless j v ts h.2]
    rfl

theorem events_roundless : ∀ es : List (Event ι α),
    (eventsMoments es).filterMap (Moment.published? i) = [] → eventsRounds i es = []
  | [], _ => rfl
  | e :: es, h => by
    rw [eventsMoments, List.filterMap_append, List.append_eq_nil_iff] at h
    rw [eventsRounds, event_roundless e h.1, events_roundless es h.2]
    rfl

end

/-! ## Publications -/

/-- From one board to another, the signal is set to these values, one after another. -/
structure Publishes (rules : Rules ι α) (i : ι) (b : Board ι α) (vs : List α) (c : Board ι α) : Prop where
  /-- Unless callbacks publish on it by hand, nothing else is published there. -/
  account : ∃ es, Happens (rules.Follows Action.Brings) b (.events es) c ∧
    (eventsMoments es).filterMap (Moment.set? i) = vs ∧
    (rules.Honest i → (eventsMoments es).filterMap (Moment.published? i) = vs)
  /-- An observer that stays receives each of them once. -/
  received : rules.Honest i → ∀ name, Stays i (.callback name) b c →
    c.received i (.callback name) = b.received i (.callback name) ++ vs

/-- What stays from one board to another stays up to a board between, and from there on. -/
theorem Stays.split {s : Subscriber} (h : Stays i s b d) (hbc : Onward s b c) (hcd : Onward s c d) :
    Stays i s b c ∧ Stays i s c d := by
  have hfirst := hbc.grants i
  have hsecond := hcd.grants i
  have hcount := hbc.count i
  have hrest := hcd.count i
  have honce := h.once
  have hstill := h.still
  have hagain := h.again
  have helsewhere : ∀ id, s = .stream id → ∀ j, j ≠ i → c.subscriptions.count (j, s) = 0 := by
    intro id hid j hj
    have hj' := hbc.count j
    rw [h.elsewhere id hid j hj] at hj'
    subst hid
    exact Nat.le_zero.mp hj'
  refine ⟨⟨honce, ?_, ?_, h.opened, h.elsewhere⟩, ⟨?_, hstill, ?_, hbc.knows h.opened, helsewhere⟩⟩
  all_goals omega

omit [DecidableEq ι] in
theorem callback_known (b : Board ι α) (name : String) : b.Knows (.callback name) := nofun

theorem Publishes.nil (b : Board ι α) : Publishes rules i b [] b :=
  ⟨⟨[], .nothing b, rfl, fun _ => rfl⟩, fun _ _ _ => (List.append_nil _).symm⟩

omit [DecidableEq ι] in
theorem eventsMoments_append (es es' : List (Event ι α)) :
    eventsMoments (es ++ es') = eventsMoments es ++ eventsMoments es' := by
  induction es with
  | nil => rfl
  | cons e es ih => rw [List.cons_append, eventsMoments, eventsMoments, ih, List.append_assoc]

theorem Publishes.trans {vs ws : List α} (h : Publishes rules i b vs c) (h' : Publishes rules i c ws d) :
    Publishes rules i b (vs ++ ws) d := by
  obtain ⟨⟨es, hfirst, hsets, hpublished⟩, hreceived⟩ := h
  obtain ⟨⟨es', hrest, hsets', hpublished'⟩, hreceived'⟩ := h'
  refine ⟨⟨es ++ es', hfirst.append hrest, ?_, fun hh => ?_⟩, fun hh name hstays => ?_⟩
  · rw [eventsMoments_append, List.filterMap_append, hsets, hsets']
  · rw [eventsMoments_append, List.filterMap_append, hpublished hh, hpublished' hh]
  · obtain ⟨hup, hon⟩ := hstays.split (hfirst.onward (callback_known b name)) (hrest.onward (callback_known c name))
    rw [hreceived' hh name hon, hreceived hh name hup, List.append_assoc]

/-- What happens elsewhere. -/
theorem Happens.elsewhere (hq : rules.Spares i) {es : List (Event ι α)}
    (h : Happens (rules.Follows Action.Brings) b (.events es) c) (hes : ∀ e ∈ es, e.Lacks (Moment.published? i)) :
    Publishes rules i b [] c := by
  have hpublished : rules.Honest i → (eventsMoments es).filterMap (Moment.published? i) = [] := fun hh =>
    h.lacks (published_begins i) (honest_lacks hq hh) hes
  refine ⟨⟨es, h, ?_, hpublished⟩, fun hh name _ => ?_⟩
  · exact h.lacks (set_begins i) (spares_lacks hq) fun e he => (hes e he).set
  · have htells : Tells b (eventsMoments es) c := h.tells
    rw [htells.received, events_heeded (received_heeds name i), events_roundless es (hpublished hh)]
    rfl

/-- A signal is set to a new value. -/
theorem set_publishes (hq : rules.Spares i) {v held : α} (hheld : b.value? i = some held)
    (hnew : rules.same v held = false) : Publishes rules i b [v] ((perform rules (.set i v)).run.run b).2 := by
  obtain ⟨ts, hts, hround⟩ := set_happens hheld hnew
  have hdone : Happens (rules.Follows Action.Brings) b (.events [.round i v true ts])
      ((perform rules (.set i v)).run.run b).2 := .set hheld hts hround (.nothing _)
  have hmoments : eventsMoments [.round i v true ts] = .begun i v true :: turnsMoments i v ts := List.append_nil _
  have hset : Moment.set? i (.begun i v true) = some v := if_pos rfl
  have hpublished : Moment.published? i (.begun i v true) = some v := if_pos rfl
  have hturns : rules.Honest i → (turnsMoments i v ts).filterMap (Moment.published? i) = [] := fun hh =>
    hround.lacks (published_begins i) (honest_lacks hq hh) trivial
  refine ⟨⟨_, hdone, ?_, fun hh => ?_⟩, fun hh name hstays => ?_⟩
  · have hspared : (turnsMoments i v ts).filterMap (Moment.set? i) = [] :=
      hround.lacks (set_begins i) (spares_lacks hq) trivial
    rw [hmoments, List.filterMap_cons_some hset, hspared]
  · rw [hmoments, List.filterMap_cons_some hpublished, hturns hh]
  · have honce : (ts.map (·.1)).count (.callback name) = 1 := by
      rw [hts, subscribers_count]
      exact hstays.once
    rw [hdone.tells.received]
    show _ ++ (eventsMoments [.round i v true ts]).filterMap (Moment.received? name i) = _
    rw [hmoments, List.filterMap_cons_none rfl, gets_quiet (turns_roundless i v ts (hturns hh)), honce]
    rfl

/-- What a signal is set to by an action from outside is what the action publishes there. -/
theorem perform_publishes (hq : rules.Spares i) {a : Action ι α} (ha : a.publishesOn i = false) (b : Board ι α) :
    Publishes rules i b (valuesOn i (b.publishes rules a)) ((perform rules a).run.run b).2 := by
  by_cases hs : a.sets i = false
  · have hnothing : valuesOn i (b.publishes rules a) = [] := by
      cases a with
      | publish j v guard => exact List.filterMap_cons_none (if_neg (of_decide_eq_false ha))
      | set j v =>
        have hone : valuesOn i [(j, v)] = [] := List.filterMap_cons_none (if_neg (of_decide_eq_false hs))
        simp only [Board.publishes]
        split
        · split
          · rfl
          · exact hone
        · rfl
      | subscribe | unsubscribe | openStream | take | closeStream | fail | failAt => rfl
    obtain ⟨es, hbrings, hdone⟩ := performBy_happens (performWithin_works rules nestingLimit) none a b
    rw [hnothing]
    exact hdone.elsewhere hq (brings_lacks hbrings hs ha)
  · cases a with
    | set j v =>
      obtain rfl : j = i := of_decide_eq_true (Bool.not_eq_false _ ▸ hs)
      cases hheld : b.value? j with
      | none =>
        simp only [Board.publishes, set_board, hheld]
        exact .nil b
      | some held =>
        cases hsame : rules.same v held with
        | true =>
          simp only [Board.publishes, set_board, hheld, hsame, if_true]
          exact .nil b
        | false =>
          have hone : valuesOn j (b.publishes rules (.set j v)) = [v] := by
            simp [Board.publishes, hheld, hsame, valuesOn]
          rw [hone]
          exact set_publishes hq hheld hsame
    | publish | subscribe | unsubscribe | openStream | take | closeStream | fail | failAt => exact absurd rfl hs

/-- What a signal publishes of actions from outside, and what its observers receive. -/
theorem after_publishes (hq : rules.Spares i) {as : List (Action ι α)} (ha : ∀ a ∈ as, a.publishesOn i = false)
    (b : Board ι α) :
    Publishes rules i b (valuesOn i (b.along rules (fun b a => b.publishes rules a) as)) (b.after rules as) := by
  induction as generalizing b with
  | nil => exact .nil b
  | cons a as ih =>
    have hfirst := perform_publishes hq (ha a List.mem_cons_self) b
    rw [Board.along, valuesOn_append, after_cons]
    exact hfirst.trans (ih (fun a' ha' => ha a' (List.mem_cons_of_mem a ha')) _)

end

/-- The observer fails on every value; those that the signal holds already it is spared. -/
example :
    let rules : Rules Unit Nat := ⟨fun _ => [.fail], fun v w => v == w⟩
    let b := (Board.empty [((), 0)]).after rules [.subscribe () "a" "1"]
    let c := b.after rules [.set () 0, .set () 1, .set () 1, .set () 2, .set () 1]
    c.received () (.callback "a") = [1, 2, 1] := by
  decide

end StepFlow.Channel
