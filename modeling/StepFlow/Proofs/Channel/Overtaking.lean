/-
  StepFlow.Proofs.Channel.Overtaking — which value of a signal an observer is left with.

  A callback may set the signal while a value of it is published. The new value then has its
  round at once, and the old one goes on afterwards: an observer whose turn is still to come
  gets the new value first and the old one last, though the signal holds the new one.

  Proved:
  (1) `Happens.reached`: an observer that stays subscribed has a turn in every round, so it gets
      every value that the signal is set to (`received_all`).
  (2) `upToDate_iff`: the last value it gets is the one that the signal holds exactly if the last
      round in its round is set off in its own turn or later, and leaves it up to date; or if
      that leaves the signal with the value of the outer round again (`UpToDate`).
-/

import StepFlow.Proofs.Channel.Streaming

namespace StepFlow.Channel

variable {ι α : Type} [DecidableEq ι]

/-! ## Rounds on a channel -/

mutual

/-- The rounds on a channel, without those inside of them. -/
def Event.roundsOn (i : ι) : Event ι α → List (Event ι α)
  | .round j v sets ts => if j = i then [.round j v sets ts] else turnsRounds i ts
  | .taking .. => []

def turnsRounds (i : ι) : List (Turn ι α) → List (Event ι α)
  | [] => []
  | (_, es) :: ts => eventsRounds i es ++ turnsRounds i ts

def eventsRounds (i : ι) : List (Event ι α) → List (Event ι α)
  | [] => []
  | e :: es => e.roundsOn i ++ eventsRounds i es

end

def Account.roundsOn (i : ι) : Account ι α → List (Event ι α)
  | .events es => eventsRounds i es
  | .turns _ _ ts => turnsRounds i ts

/-- What a callback is handed on a channel. -/
def Moment.received? (name : String) (i : ι) : Moment ι α → Option α
  | .handed (.callback other) j v => if other = name ∧ j = i then some v else none
  | .handed (.stream _) _ _ | .begun .. | .taken .. => none

/-- What is said of moments on one channel only. -/
structure Heeds (i : ι) (f : Moment ι α → Option α) : Prop where
  begun : ∀ j v sets, j ≠ i → f (.begun j v sets) = none
  handed : ∀ s j v, j ≠ i → f (.handed s j v) = none
  taken : ∀ id v, f (.taken id v) = none

theorem set_heeds (i : ι) : Heeds i (Moment.set? (α := α) i) := by
  refine ⟨fun j v sets hj => ?_, fun _ _ _ _ => rfl, fun _ _ => rfl⟩
  cases sets
  · rfl
  · exact if_neg hj

theorem received_heeds (name : String) (i : ι) : Heeds i (Moment.received? (α := α) name i) := by
  refine ⟨fun _ _ _ _ => rfl, fun s j v hj => ?_, fun _ _ => rfl⟩
  cases s with
  | callback other => exact if_neg fun h => hj h.2
  | stream id => rfl

section

variable {i : ι} {f : Moment ι α → Option α}

mutual

theorem event_heeded (hf : Heeds i f) : ∀ e : Event ι α,
    e.moments.filterMap f = (e.roundsOn i).flatMap fun e => e.moments.filterMap f
  | .round j v sets ts => by
    by_cases hj : j = i
    · rw [Event.roundsOn, if_pos hj, List.flatMap_singleton]
    · rw [Event.moments, Event.roundsOn, if_neg hj, List.filterMap_cons_none (hf.begun j v sets hj)]
      exact turns_heeded hf hj v ts
  | .taking id v => List.filterMap_cons_none (hf.taken id v)

theorem turns_heeded (hf : Heeds i f) {j : ι} (hj : j ≠ i) (v : α) : ∀ ts : List (Turn ι α),
    (turnsMoments j v ts).filterMap f = (turnsRounds i ts).flatMap fun e => e.moments.filterMap f
  | [] => rfl
  | (s, es) :: ts => by
    rw [turnsMoments, turnsRounds, List.filterMap_cons_none (hf.handed s j v hj), List.filterMap_append,
      List.flatMap_append, events_heeded hf es, turns_heeded hf hj v ts]

theorem events_heeded (hf : Heeds i f) : ∀ es : List (Event ι α),
    (eventsMoments es).filterMap f = (eventsRounds i es).flatMap fun e => e.moments.filterMap f
  | [] => rfl
  | e :: es => by
    rw [eventsMoments, eventsRounds, List.filterMap_append, List.flatMap_append, event_heeded hf e, events_heeded hf es]

end

omit [DecidableEq ι] in
theorem turnsMoments_append (j : ι) (v : α) (ts us : List (Turn ι α)) :
    turnsMoments j v (ts ++ us) = turnsMoments j v ts ++ turnsMoments j v us := by
  induction ts with
  | nil => rfl
  | cons t ts ih => simp only [List.cons_append, turnsMoments, ih, List.append_assoc]

theorem turnsRounds_append (i : ι) (ts us : List (Turn ι α)) :
    turnsRounds i (ts ++ us) = turnsRounds i ts ++ turnsRounds i us := by
  induction ts with
  | nil => rfl
  | cons t ts ih => simp only [List.cons_append, turnsRounds, ih, List.append_assoc]

/-- The values that a signal is set to in an event, in their order. -/
def Event.sets (i : ι) (e : Event ι α) : List α := e.moments.filterMap (Moment.set? i)

/-- The values that a callback is handed in an event, in their order. -/
def Event.gets (i : ι) (name : String) (e : Event ι α) : List α := e.moments.filterMap (Moment.received? name i)

theorem sets_round (i : ι) (v : α) (ts : List (Turn ι α)) :
    (Event.round i v true ts).sets i = v :: (turnsRounds i ts).flatMap (Event.sets i) := by
  have hturns : (turnsMoments i v ts).filterMap (Moment.set? i) = (turnsRounds i ts).flatMap (Event.sets i) := by
    induction ts with
    | nil => rfl
    | cons t ts ih =>
      rw [turnsMoments, turnsRounds, List.filterMap_cons_none rfl, List.filterMap_append, List.flatMap_append, ih,
        events_heeded (set_heeds i)]
      rfl
  have hbegun : Moment.set? i (.begun i v true) = some v := if_pos rfl
  rw [Event.sets, Event.moments, List.filterMap_cons_some hbegun, hturns]

theorem gets_round (i : ι) (v : α) (sets : Bool) (ts : List (Turn ι α)) (name : String) :
    (Event.round i v sets ts).gets i name = (turnsMoments i v ts).filterMap (Moment.received? name i) := rfl

theorem gets_turn (i : ι) (v : α) (t : Subscriber) (es : List (Event ι α)) (ts : List (Turn ι α)) (name : String) :
    (turnsMoments i v ((t, es) :: ts)).filterMap (Moment.received? name i) =
      (if t = .callback name then [v] else []) ++ (eventsRounds i es).flatMap (Event.gets i name) ++
        (turnsMoments i v ts).filterMap (Moment.received? name i) := by
  have hown : [Moment.handed t i v].filterMap (Moment.received? name i) = if t = .callback name then [v] else [] := by
    cases t with
    | stream id => simp [Moment.received?]
    | callback other => by_cases h : other = name <;> simp [Moment.received?, h]
  rw [turnsMoments, ← List.singleton_append, List.filterMap_append, List.filterMap_append, hown,
    events_heeded (received_heeds name i), List.append_assoc]
  rfl

theorem mem_gets_turns (i : ι) (v : α) (ts : List (Turn ι α)) (name : String) (w : α) :
    w ∈ (turnsMoments i v ts).filterMap (Moment.received? name i) ↔
      (w = v ∧ .callback name ∈ ts.map (·.1)) ∨ ∃ e ∈ turnsRounds i ts, w ∈ e.gets i name := by
  induction ts with
  | nil => simp [turnsMoments, turnsRounds]
  | cons t ts ih =>
    have hinner : (∃ e ∈ turnsRounds i (t :: ts), w ∈ e.gets i name) ↔
        (∃ e ∈ eventsRounds i t.2, w ∈ e.gets i name) ∨ ∃ e ∈ turnsRounds i ts, w ∈ e.gets i name := by
      simp only [turnsRounds, List.mem_append, or_and_right, exists_or]
    rw [gets_turn, List.mem_append, List.mem_append, ih, List.mem_flatMap, hinner, List.map_cons, List.mem_cons,
      eq_comm (b := t.1)]
    generalize (∃ e ∈ eventsRounds i t.2, w ∈ e.gets i name) = p
    generalize (∃ e ∈ turnsRounds i ts, w ∈ e.gets i name) = q
    by_cases ht : t.1 = .callback name
    · simp only [ht, if_true, List.mem_singleton, true_or, and_true]
      tauto
    · simp only [ht, if_false, List.not_mem_nil, false_or]
      tauto

/-- Turns in which nothing is published on the channel. -/
theorem gets_quiet {ts : List (Turn ι α)} (hq : turnsRounds i ts = []) (v : α) (name : String) :
    (turnsMoments i v ts).filterMap (Moment.received? name i) =
      List.replicate ((ts.map (·.1)).count (.callback name)) v := by
  induction ts with
  | nil => rfl
  | cons t ts ih =>
    obtain ⟨hes, hts⟩ := List.append_eq_nil_iff.mp hq
    rw [gets_turn, hes, ih hts, List.map_cons]
    by_cases ht : t.1 = .callback name
    · rw [if_pos ht, ht, List.count_cons_self, List.replicate_succ]
      rfl
    · rw [if_neg ht, List.count_cons_of_ne ht]
      rfl

/-! ## The last round inside of a round -/

/-- The last round that is set off in these turns is this one, in this turn, with these turns
    left. -/
structure Last (i : ι) (ts : List (Turn ι α)) (e : Event ι α) (rest : List (Turn ι α)) : Prop where
  split : ∃ before t es es', ts = before ++ (t, es) :: rest ∧ eventsRounds i es = es' ++ [e]
  quiet : turnsRounds i rest = []

theorem exists_last {ts : List (Turn ι α)} (h : turnsRounds i ts ≠ []) : ∃ e rest, Last i ts e rest := by
  induction ts with
  | nil => exact absurd rfl h
  | cons t ts ih =>
    by_cases hts : turnsRounds i ts = []
    · rcases List.eq_nil_or_concat (eventsRounds i t.2) with hes | ⟨es', e, hes⟩
      · exact absurd (by rw [turnsRounds, hes, hts]; rfl) h
      · exact ⟨e, ts, ⟨[], t.1, t.2, es', rfl, hes.trans List.concat_eq_append⟩, hts⟩
    · obtain ⟨e, rest, ⟨before, t', es, es', hsplit, hes⟩, hquiet⟩ := ih hts
      exact ⟨e, rest, ⟨t :: before, t', es, es', by rw [hsplit]; rfl, hes⟩, hquiet⟩

theorem Last.mem {ts rest : List (Turn ι α)} {e : Event ι α} (h : Last i ts e rest) : e ∈ turnsRounds i ts := by
  obtain ⟨⟨before, t, es, es', rfl, hes⟩, -⟩ := h
  rw [turnsRounds_append, turnsRounds, hes]
  simp

theorem getLast_append {β : Type} {xs ys : List β} (h : ys ≠ []) : (xs ++ ys).getLast? = ys.getLast? := by
  rw [List.getLast?_append, List.getLast?_eq_getLast_of_ne_nil h]
  rfl

/-- The signal is left with what it is set to in the last round. -/
theorem Last.sets {ts rest : List (Turn ι α)} {e : Event ι α} (h : Last i ts e rest) (v : α) (he : e.sets i ≠ []) :
    ((Event.round i v true ts).sets i).getLast? = (e.sets i).getLast? := by
  obtain ⟨⟨before, t, es, es', rfl, hes⟩, hquiet⟩ := h
  rw [sets_round, turnsRounds_append, turnsRounds, hes, hquiet, List.append_nil, List.flatMap_append,
    List.flatMap_append, List.flatMap_singleton, ← List.append_assoc, ← List.cons_append]
  exact getLast_append he

/-- An observer that has had its turn gets the values of the last round last. -/
theorem Last.gets {ts rest : List (Turn ι α)} {e : Event ι α} (h : Last i ts e rest) (v : α) (sets : Bool)
    {name : String} (hrest : .callback name ∉ rest.map (·.1)) (he : e.gets i name ≠ []) :
    ((Event.round i v sets ts).gets i name).getLast? = (e.gets i name).getLast? := by
  obtain ⟨⟨before, t, es, es', rfl, hes⟩, hquiet⟩ := h
  rw [gets_round, turnsMoments_append, List.filterMap_append, gets_turn, gets_quiet hquiet,
    List.count_eq_zero.mpr hrest, List.replicate_zero, List.append_nil, hes, List.flatMap_append,
    List.flatMap_singleton, ← List.append_assoc, ← List.append_assoc]
  exact getLast_append he

/-- One that is still to have its turn gets the value of the outer round last. -/
theorem Last.overtaken {ts rest : List (Turn ι α)} {e : Event ι α} (h : Last i ts e rest) (v : α) (sets : Bool)
    {name : String} (hrest : .callback name ∈ rest.map (·.1)) :
    ((Event.round i v sets ts).gets i name).getLast? = some v := by
  obtain ⟨⟨before, t, es, es', rfl, hes⟩, hquiet⟩ := h
  obtain ⟨n, hn⟩ := Nat.exists_eq_succ_of_ne_zero (Nat.pos_iff_ne_zero.mp (List.count_pos_iff.mpr hrest))
  rw [gets_round, turnsMoments_append, List.filterMap_append, gets_turn, gets_quiet hquiet, hn, List.replicate_succ',
    ← List.append_assoc, ← List.append_assoc]
  exact getLast_append (List.cons_ne_nil v [])

/-! ## Observers that stay -/

/-- A round in which the signal is set; the subscriber has a turn in it, and in all rounds inside
    of it. -/
inductive Reached (i : ι) (s : Subscriber) : Event ι α → Prop
  | mk {v : α} {ts : List (Turn ι α)} : s ∈ ts.map (·.1) → (∀ e ∈ turnsRounds i ts, Reached i s e) →
      Reached i s (.round i v true ts)

/-- What an observer gets last in a round is what the signal holds. -/
inductive UpToDate (i : ι) (s : Subscriber) : Event ι α → Prop
  /-- Nobody sets the signal meanwhile. -/
  | quiet {v : α} {ts : List (Turn ι α)} : turnsRounds i ts = [] → UpToDate i s (.round i v true ts)
  /-- The observer has had its turn when the last round is set off. -/
  | ahead {v : α} {ts rest : List (Turn ι α)} {e : Event ι α} : Last i ts e rest → s ∉ rest.map (·.1) →
      UpToDate i s e → UpToDate i s (.round i v true ts)
  /-- The observer is overtaken, but the signal is left with the value of the outer round again. -/
  | again {v : α} {ts rest : List (Turn ι α)} {e : Event ι α} : Last i ts e rest → s ∈ rest.map (·.1) →
      (e.sets i).getLast? = some v → UpToDate i s (.round i v true ts)

variable {name : String} {e : Event ι α}

theorem Reached.sets (h : Reached i (.callback name) e) : e.sets i ≠ [] := by
  cases h with
  | mk => rw [sets_round]; exact List.cons_ne_nil _ _

/-- The observer gets every value that the signal is set to, and no other. -/
theorem Reached.mem_gets (h : Reached i (.callback name) e) (w : α) : w ∈ e.gets i name ↔ w ∈ e.sets i := by
  induction h with
  | @mk v ts hmem _ ih =>
    rw [gets_round, mem_gets_turns, sets_round, List.mem_cons, List.mem_flatMap]
    have hinner : (∃ e ∈ turnsRounds i ts, w ∈ e.gets i name) ↔ ∃ e ∈ turnsRounds i ts, w ∈ e.sets i :=
      exists_congr fun e => and_congr_right (ih e)
    simp only [hmem, and_true, hinner]

theorem Reached.gets (h : Reached i (.callback name) e) : e.gets i name ≠ [] := by
  obtain ⟨w, hw⟩ := List.exists_mem_of_ne_nil _ h.sets
  exact List.ne_nil_of_mem ((h.mem_gets w).mpr hw)

theorem UpToDate.last (hu : UpToDate i (.callback name) e) (h : Reached i (.callback name) e) :
    (e.gets i name).getLast? = (e.sets i).getLast? := by
  induction hu with
  | @quiet v ts hquiet =>
    cases h with
    | mk hmem hinner =>
      obtain ⟨n, hn⟩ := Nat.exists_eq_succ_of_ne_zero (Nat.pos_iff_ne_zero.mp (List.count_pos_iff.mpr hmem))
      rw [gets_round, gets_quiet hquiet, sets_round, hquiet, hn, List.replicate_succ']
      exact getLast_append (List.cons_ne_nil v [])
  | @ahead v ts rest e hlast hrest _ ih =>
    cases h with
    | mk hmem hinner =>
      have he := hinner e hlast.mem
      rw [hlast.gets v true hrest he.gets, hlast.sets v he.sets]
      exact ih he
  | @again v ts rest e hlast hrest hv =>
    cases h with
    | mk hmem hinner => rw [hlast.overtaken v true hrest, hlast.sets v (hinner e hlast.mem).sets, hv]

/-- When an observer that stays is left with the value of the signal. -/
theorem upToDate_iff (h : Reached i (.callback name) e) :
    (e.gets i name).getLast? = (e.sets i).getLast? ↔ UpToDate i (.callback name) e := by
  refine ⟨fun heq => ?_, fun hu => hu.last h⟩
  induction h with
  | @mk v ts hmem hinner ih =>
    by_cases hquiet : turnsRounds i ts = []
    · exact .quiet hquiet
    · obtain ⟨e, rest, hlast⟩ := exists_last hquiet
      have he := hinner e hlast.mem
      rw [hlast.sets v he.sets] at heq
      by_cases hrest : Subscriber.callback name ∈ rest.map (·.1)
      · rw [hlast.overtaken v true hrest] at heq
        exact .again hlast hrest heq.symm
      · rw [hlast.gets v true hrest he.gets] at heq
        exact .ahead hlast hrest (ih e hlast.mem heq)

end

/-! ## Runs -/

namespace Action

/-- Actions that publish on the channel as it is, not by setting a value. -/
def publishesOn (i : ι) : Action ι α → Bool
  | .publish j _ _ => decide (j = i)
  | .set .. | .subscribe .. | .unsubscribe _ | .openStream .. | .take _ | .closeStream _ | .fail | .failAt _ => false

end Action

/-- What callbacks publish on the signal, they set. -/
def Rules.Honest (rules : Rules ι α) (i : ι) : Prop := ∀ name, ∀ a ∈ rules.program name, a.publishesOn i = false

/-- If this is a round on the signal, it has been set. -/
def Event.Honest (i : ι) : Event ι α → Prop
  | .round j _ sets _ => j = i → sets = true
  | .taking .. => True

def Account.Honest (i : ι) : Account ι α → Prop
  | .events es => ∀ e ∈ es, e.Honest i
  | .turns .. => True

/-- The subscriber is still subscribed, and has not been subscribed in between. -/
structure Remains (i : ι) (s : Subscriber) (b c : Board ι α) : Prop where
  still : (i, s) ∈ c.subscriptions
  again : c.grants i s = b.grants i s

section

variable {rules : Rules ι α} {i : ι} {s : Subscriber} {b c d : Board ι α}

theorem brings_honest {a : Action ι α} {es : List (Event ι α)} (h : a.Brings es) (ha : a.publishesOn i = false) :
    ∀ e ∈ es, e.Honest i := by
  cases h with
  | nothing => exact nofun
  | publish j v guard ts => exact fun e he => List.mem_singleton.mp he ▸ fun hj => absurd hj (of_decide_eq_false ha)
  | set j v ts => exact fun e he => List.mem_singleton.mp he ▸ fun _ => rfl
  | take name id v => exact fun e he => List.mem_singleton.mp he ▸ trivial

/-- What remains up to a later board remains up to one in between, and from there on. -/
theorem Remains.split (h : Remains i s b d) (hbc : Onward s b c) (hcd : Onward s c d) :
    Remains i s b c ∧ Remains i s c d := by
  have hfirst := hbc.grants i
  have hsecond := hcd.grants i
  have hcount := hcd.count i
  have hagain := h.again
  have hstill := List.count_pos_iff.mpr h.still
  exact ⟨⟨List.count_pos_iff.mp (by omega), by omega⟩, h.still, by omega⟩

/-- So it has been subscribed from the first. -/
theorem Remains.subscribed (h : Remains i s b c) (hbc : Onward s b c) : s ∈ b.subscribers i := by
  have hcount := hbc.count i
  have hagain := h.again
  have hstill := List.count_pos_iff.mpr h.still
  have hfirst : 0 < b.subscriptions.count (i, s) := by omega
  rw [← subscribers_count] at hfirst
  exact List.count_pos_iff.mp hfirst

/-- An observer that remains has a turn in every round. -/
theorem Happens.reached (hq : rules.Honest i) {a : Account ι α} (h : Happens (rules.Follows Action.Brings) b a c)
    (ha : a.Honest i) (hb : b.Knows s) (hr : Remains i s b c) : ∀ e ∈ a.roundsOn i, Reached i s e := by
  induction h with
  | nothing b => exact nofun
  | finished b => exact nofun
  | alter hstep hrest ih =>
    have hfirst := hstep.onward hb
    exact ih ha (hfirst.knows hb) (hr.split hfirst (hrest.onward (hfirst.knows hb))).2
  | @take b c id t v rest es _ _ hrest ih =>
    have htaken : Rests b (b.mapStream id fun s => { s with queue := rest }) := ⟨List.length_modify _ _ _, rfl, rfl⟩
    have hfirst : Onward s b _ := htaken.onward
    exact ih (fun e he => ha e (List.mem_cons_of_mem _ he)) (hfirst.knows hb)
      (hr.split hfirst (hrest.onward (hfirst.knows hb))).2
  | @publish b c d j v ts es hsnapshot hround hrest ih ih' =>
    have hfirst := hround.onward hb
    obtain ⟨hhead, htail⟩ := hr.split hfirst (hrest.onward (hfirst.knows hb))
    have hj : j ≠ i := fun hj => Bool.false_ne_true (ha _ List.mem_cons_self hj)
    intro e he
    rcases List.mem_append.mp he with he | he
    · rw [Event.roundsOn, if_neg hj] at he
      exact ih trivial hb hhead e he
    · exact ih' (fun e he => ha e (List.mem_cons_of_mem _ he)) (hfirst.knows hb) htail e he
  | @set b c d j v held ts es _ hsnapshot hround hrest ih ih' =>
    have hvalue : Rests b (b.setValue j v) := ⟨rfl, rfl, rfl⟩
    have hfirst : Onward s b c := hvalue.onward.trans (hround.onward hb)
    obtain ⟨hhead, htail⟩ := hr.split hfirst (hrest.onward (hfirst.knows hb))
    intro e he
    rcases List.mem_append.mp he with he | he
    · have hinner := ih trivial hb ⟨hhead.still, hhead.again⟩
      by_cases hj : j = i
      · subst hj
        rw [Event.roundsOn, if_pos rfl, List.mem_singleton] at he
        subst he
        exact .mk (hsnapshot ▸ hhead.subscribed hfirst) hinner
      · rw [Event.roundsOn, if_neg hj] at he
        exact hinner e he
    · exact ih' (fun e he => ha e (List.mem_cons_of_mem _ he)) (hfirst.knows hb) htail e he
  | @queue b c j v ts id hrest ih =>
    have hqueued : Rests b (b.enqueue id v) := ⟨List.length_modify _ _ _, rfl, rfl⟩
    have hfirst : Onward s b _ := hqueued.onward
    exact ih trivial (hfirst.knows hb) (hr.split hfirst (hrest.onward (hfirst.knows hb))).2
  | @call b c c' d j v name es ts hmay hbody hfails hrest ih ih' =>
    have hdelivered : Rests b (b.deliver name j v) := ⟨rfl, rfl, rfl⟩
    have hnoted : Rests c c' := by rcases hfails with rfl | rfl <;> exact ⟨rfl, rfl, rfl⟩
    have hfirst : Onward s b c := hdelivered.onward.trans (hbody.onward hb)
    have hturn : Onward s b c' := hfirst.trans hnoted.onward
    obtain ⟨hhead, htail⟩ := hr.split hturn (hrest.onward (hturn.knows hb))
    have hinner := (hhead.split hfirst hnoted.onward).1
    intro e he
    rcases List.mem_append.mp he with he | he
    · exact ih (follows_all hmay fun a ha _ hbrings => brings_honest hbrings (hq name a ha)) hb ⟨hinner.still, hinner.again⟩ e he
    · exact ih' trivial (hturn.knows hb) htail e he

/-! ## From outside -/

/-- What a callback has received is what it is handed. -/
theorem Tells.received {ms : List (Moment ι α)} (h : Tells b ms c) (i : ι) (name : String) :
    c.received i (.callback name) = b.received i (.callback name) ++ ms.filterMap (Moment.received? name i) := by
  have hhanded : ((ms.filterMap Moment.delivery?).filter fun d => decide (d.callback = name ∧ d.channel = i)).map
      (·.value) = ms.filterMap (Moment.received? name i) := by
    rw [List.filter_filterMap, List.map_filterMap]
    refine List.filterMap_congr fun m _ => ?_
    cases m with
    | begun | taken => rfl
    | handed s j v =>
      cases s with
      | stream id => rfl
      | callback other =>
        by_cases hd : other = name ∧ j = i
        · simp [Moment.delivery?, Moment.received?, hd]
        · simp only [Moment.delivery?, Moment.received?, if_neg hd, decide_eq_false hd, Option.filter_some,
            Option.map_none, Bool.false_eq_true, if_false]
  simp only [Board.received, h.deliveries, List.filter_append, List.map_append, hhanded]

/-- A signal that is set holds the last value that it is set to. -/
theorem Tells.holds {e : Event ι α} (h : Tells b e.moments c) {held : α} (hheld : b.value? i = some held)
    (he : e.sets i ≠ []) : c.value? i = (e.sets i).getLast? := by
  rw [h.values i held hheld, List.getLastD_eq_getLast?]
  exact (congrArg some (congrArg (Option.getD · held) (List.getLast?_eq_getLast_of_ne_nil he))).trans
    (List.getLast?_eq_getLast_of_ne_nil he).symm

/-- A signal is set on one board, which becomes the other one. -/
structure Outcome (rules : Rules ι α) (i : ι) (v : α) (b : Board ι α) (e : Event ι α) (c : Board ι α) : Prop where
  round : ∃ ts, e = .round i v true ts ∧ ts.map (·.1) = b.subscribers i
  happens : Happens (rules.Follows Action.Brings) b (.events [e]) c
  /-- The signal holds what it is set to last. -/
  value : c.value? i = (e.sets i).getLast?
  received : ∀ name, c.received i (.callback name) = b.received i (.callback name) ++ e.gets i name
  /-- An observer that stays subscribed takes part in all of it, -/
  reached : ∀ name, Remains i (.callback name) b c → Reached i (.callback name) e
  /-- and gets all values that the signal is set to meanwhile. -/
  whole : ∀ name, Reached i (.callback name) e → ∀ w, w ∈ e.gets i name ↔ w ∈ e.sets i
  last : ∀ name, Reached i (.callback name) e →
    ((e.gets i name).getLast? = c.value? i ↔ UpToDate i (.callback name) e)

/-- Observers get what a signal is set to, but the current value is not always the last one. -/
theorem observers_left_up_to_date (hq : rules.Honest i) {v held : α} (hheld : b.value? i = some held)
    (hnew : rules.same v held = false) : ∃ e, Outcome rules i v b e ((perform rules (.set i v)).run.run b).2 := by
  obtain ⟨ts, hts, hround⟩ := set_happens hheld hnew
  have hdone : Happens (rules.Follows Action.Brings) b (.events [.round i v true ts])
      ((perform rules (.set i v)).run.run b).2 := .set hheld hts hround (.nothing _)
  have htells : Tells b (Event.round i v true ts).moments ((perform rules (.set i v)).run.run b).2 := by
    rw [← List.append_nil (Event.moments _)]
    exact hdone.tells
  have hvalue := htells.holds hheld ((sets_round i v ts).symm ▸ List.cons_ne_nil v _)
  refine ⟨_, ⟨ts, rfl, hts⟩, hdone, hvalue, htells.received i, fun name hr => ?_, fun name h => h.mem_gets,
    fun name h => ?_⟩
  · have hhonest : (Account.events [Event.round i v true ts]).Honest i :=
      fun e he => List.mem_singleton.mp he ▸ fun _ => rfl
    have hknows : b.Knows (.callback name) := fun _ h => by cases h
    exact hdone.reached hq hhonest hknows hr _ (by simp [Account.roundsOn, eventsRounds, Event.roundsOn])
  · rw [hvalue]
    exact upToDate_iff h

/-- The first observer answers a value with another one, and is itself left with that one. -/
theorem outcome_of_two_sets :
    let rules : Rules Unit Nat := ⟨fun name => if name = "a" then [.set () 2] else [], fun v w => v == w⟩
    let b := (Board.empty [((), 0)]).after rules [.subscribe () "a" "1", .subscribe () "b" "2"]
    let c := ((perform rules (.set () 1)).run.run b).2
    (∃ e, Outcome rules () 1 b e c) ∧ c.received () (.callback "a") = [1, 2] ∧ c.value? () = some 2 := by
  intro rules b c
  have hhonest : rules.Honest () := by
    intro name
    by_cases h : name = "a" <;> simp [rules, h, Action.publishesOn]
  exact ⟨observers_left_up_to_date hhonest (by decide : b.value? () = some 0) (by decide), by decide, by decide⟩

/-- The first observer answers a value with another one, so the second one gets them in the wrong order. -/
theorem observer_left_behind :
    let rules : Rules Unit Nat := ⟨fun name => if name = "a" then [.set () 2] else [], fun v w => v == w⟩
    let b := (Board.empty [((), 0)]).after rules [.subscribe () "a" "1", .subscribe () "b" "2"]
    let c := ((perform rules (.set () 1)).run.run b).2
    Remains () (.callback "b") b c ∧ b.received () (.callback "b") = [] ∧ c.received () (.callback "b") = [2, 1] ∧
      c.value? () = some 2 :=
  ⟨⟨by decide, by decide⟩, by decide, by decide, by decide⟩

end

end StepFlow.Channel
