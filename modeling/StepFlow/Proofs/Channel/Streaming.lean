/-
  StepFlow.Proofs.Channel.Streaming — publishing is a complete pass over the subscribers of the
  moment, and streams get what is published.

  Proved:
  (1) `perform_tells`, `after_tells`: what actions from outside hand to streams, and take from
      them, if no callback publishes.
  (2) `Session`: a stream that is opened and closed from outside gets the values that are
      published meanwhile, and no others, whatever the callbacks do.
  (3) `publishing_is_a_complete_pass`: so does everybody who is subscribed when a value is
      published, at any depth, and nobody else.
-/

import StepFlow.Proofs.Channel.Rounds

namespace StepFlow.Channel

variable {ι α : Type} [DecidableEq ι]

namespace Board

/-- What an action from outside publishes. -/
def publishes (rules : Rules ι α) (b : Board ι α) : Action ι α → List (ι × α)
  | .publish i v _ => [(i, v)]
  | .set i v =>
    match b.value? i with
    | some held => if rules.same v held then [] else [(i, v)]
    | none => []
  | .subscribe .. | .unsubscribe _ | .openStream .. | .take _ | .closeStream _ | .fail | .failAt _ => []

/-- What an action from outside gets from a stream. -/
def takes (rules : Rules ι α) (b : Board ι α) (id : Nat) : Action ι α → List α
  | .take name =>
    if b.streamId? name = some id then
      match ((perform rules (.take name)).run.run b).1 with
      | .ok (some v) => [v]
      | .ok none | .error _ => []
    else []
  | .subscribe .. | .unsubscribe _ | .publish .. | .set .. | .openStream .. | .closeStream _ | .fail | .failAt _ => []

/-- What actions from outside give, one after another. -/
def along {β : Type} (rules : Rules ι α) (f : Board ι α → Action ι α → List β) (b : Board ι α) :
    List (Action ι α) → List β
  | [] => []
  | a :: as => f b a ++ along rules f ((perform rules a).run.run b).2 as

/-- What a stream is handed of what is published. -/
def heard (b : Board ι α) (id : Nat) (ps : List (ι × α)) : List α :=
  ps.flatMap fun p => List.replicate (b.subscriptions.count (p.1, .stream id)) p.2

end Board

/-- The values that are published on a channel. -/
def valuesOn (i : ι) (ps : List (ι × α)) : List α := ps.filterMap fun p => if p.1 = i then some p.2 else none

section

variable {rules : Rules ι α} {b c d : Board ι α} {i : ι} {v : α}

/-! ## Callbacks that publish nothing -/

omit [DecidableEq ι] in
theorem brings_passive {a : Action ι α} {es : List (Event ι α)} (h : a.Brings es) (ha : a.passive = true) :
    es = [] := by
  cases h with
  | nothing => rfl
  | publish | set | take => cases ha

omit [DecidableEq ι] in
theorem follows_passive {as : List (Action ι α)} {es : List (Event ι α)} (h : Follows Action.Brings as es)
    (ha : ∀ a ∈ as, a.passive = true) : es = [] := by
  refine List.eq_nil_iff_forall_not_mem.mpr (follows_all h fun a ha' es hbrings e he => ?_)
  rw [brings_passive hbrings (ha a ha')] at he
  cases he

/-- Nothing happens in their turns. -/
theorem turns_passive (hq : rules.Passive) {ts : List (Turn ι α)}
    (h : Happens (rules.Follows Action.Brings) b (.turns i v ts) c) :
    turnsMoments i v ts = (ts.map (·.1)).map fun s => .handed s i v := by
  induction ts generalizing b with
  | nil => rfl
  | cons t ts ih =>
    cases h with
    | queue id hrest => exact congrArg (_ :: ·) (ih hrest)
    | @call _ _ _ _ _ _ name es _ hmay _ _ hrest =>
      obtain rfl := follows_passive hmay (hq name)
      exact congrArg (_ :: ·) (ih hrest)

omit [DecidableEq ι] in
theorem queued_round (ss : List Subscriber) (i : ι) (v : α) (id : Nat) :
    (ss.map fun s => Moment.handed s i v).filterMap (Moment.queued? id) = List.replicate (ss.count (.stream id)) v := by
  induction ss with
  | nil => rfl
  | cons s ss ih =>
    rw [List.map_cons, List.filterMap_cons, ih]
    cases s with
    | callback name => rw [List.count_cons_of_ne (by intro h; cases h)]; rfl
    | stream k =>
      by_cases hk : k = id
      · subst hk
        simp [Moment.queued?, List.replicate_succ]
      · have hne : Subscriber.stream k ≠ .stream id := fun h => hk (Subscriber.stream.inj h)
        simp [Moment.queued?, hk, List.count_cons_of_ne hne]

omit [DecidableEq ι] in
theorem taken_round (ss : List Subscriber) (i : ι) (v : α) (id : Nat) :
    (ss.map fun s => Moment.handed s i v).filterMap (Moment.taken? id) = [] := by
  induction ss with
  | nil => rfl
  | cons s ss ih => exact ih

theorem publish_tells (hq : rules.Passive) (i : ι) (v : α) (b : Board ι α) :
    Tells b ((b.subscribers i).map fun s => .handed s i v) ((publish rules i v).run b).2 := by
  obtain ⟨ts, hts, hround⟩ := publishBy_happens (performWithin_works rules nestingLimit) i v b
  rw [← hts, ← turns_passive hq hround]
  exact hround.tells

theorem heard_one (b : Board ι α) (id : Nat) (i : ι) (v : α) :
    b.heard id [(i, v)] = ((b.subscribers i).map fun s => Moment.handed s i v).filterMap (Moment.queued? id) := by
  rw [queued_round, subscribers_count]
  exact List.append_nil _

/-- There is something to take, or nothing happens. -/
theorem take_cases (rules : Rules ι α) (name : String) (b : Board ι α) :
    (∃ m, (perform rules (.take name)).run.run b = (.error m, b)) ∨
      ∃ k s v rest, b.streamId? name = some k ∧ b.streams[k]? = some s ∧ s.queue = v :: rest ∧
        (perform rules (.take name)).run.run b = (.ok (some v), b.mapStream k fun s => { s with queue := rest }) := by
  have hrun := performBy_take rules (performWithin rules nestingLimit) none name b
  cases hname : b.streamId? name with
  | none =>
    rw [hname] at hrun
    exact .inl ⟨_, hrun⟩
  | some k =>
    cases hs : b.streams[k]? with
    | none =>
      rw [hname, Option.bind_some, hs] at hrun
      exact .inl ⟨_, hrun⟩
    | some s =>
      rw [hname, Option.bind_some, hs, Option.map_some] at hrun
      cases hqueue : s.queue with
      | nil =>
        simp only [hqueue] at hrun
        exact .inl ⟨_, hrun⟩
      | cons v rest =>
        simp only [hqueue] at hrun
        exact .inr ⟨k, s, v, rest, rfl, hs, hqueue, hrun⟩

/-- What an action from outside hands to streams and takes from them. -/
theorem perform_tells (hq : rules.Passive) (a : Action ι α) (b : Board ι α) :
    ∃ ms, Tells b ms ((perform rules a).run.run b).2 ∧
      ∀ id, ms.filterMap (Moment.queued? id) = b.heard id (b.publishes rules a) ∧
        ms.filterMap (Moment.taken? id) = b.takes rules id a := by
  have hpassive : a.passive = true → Tells b [] ((perform rules a).run.run b).2 := fun ha => by
    obtain ⟨es, hbrings, hdone⟩ := performBy_happens (performWithin_works rules nestingLimit) none a b
    obtain rfl := brings_passive hbrings ha
    exact hdone.tells
  cases a with
  | subscribe | unsubscribe | openStream | closeStream | fail | failAt =>
    exact ⟨[], hpassive rfl, fun _ => ⟨rfl, rfl⟩⟩
  | publish i v guard =>
    exact ⟨_, publish_tells hq i v b, fun id => ⟨(heard_one b id i v).symm, taken_round _ i v id⟩⟩
  | set i v =>
    rw [set_board]
    simp only [Board.publishes]
    cases b.value? i with
    | none => exact ⟨[], .refl b, fun _ => ⟨rfl, rfl⟩⟩
    | some held =>
      dsimp only
      split
      · exact ⟨[], .refl b, fun _ => ⟨rfl, rfl⟩⟩
      · exact ⟨_, (setValue_tells b i v).trans (publish_tells hq i v _),
          fun id => ⟨(heard_one b id i v).symm, taken_round _ i v id⟩⟩
  | take name =>
    rcases take_cases rules name b with ⟨m, hrun⟩ | ⟨k, s, v, rest, hname, hs, hqueue, hrun⟩
    · refine ⟨[], by rw [hrun]; exact .refl b, fun id => ⟨rfl, ?_⟩⟩
      simp only [Board.takes, hrun, ite_self]
      rfl
    · refine ⟨[.taken k v], by rw [hrun]; exact take_tells hs hqueue, fun id => ⟨rfl, ?_⟩⟩
      simp only [Board.takes, hrun, hname, Option.some.injEq]
      by_cases hk : k = id <;> simp [Moment.taken?, hk]

/-! ## Many actions -/

theorem after_cons (rules : Rules ι α) (b : Board ι α) (a : Action ι α) (as : List (Action ι α)) :
    b.after rules (a :: as) = ((perform rules a).run.run b).2.after rules as := rfl

theorem after_tells (hq : rules.Passive) (as : List (Action ι α)) (b : Board ι α) :
    ∃ ms, Tells b ms (b.after rules as) ∧
      ∀ id, ms.filterMap (Moment.queued? id) = b.along rules (fun b a => b.heard id (b.publishes rules a)) as ∧
        ms.filterMap (Moment.taken? id) = b.along rules (fun b a => b.takes rules id a) as := by
  induction as generalizing b with
  | nil => exact ⟨[], .refl b, fun _ => ⟨rfl, rfl⟩⟩
  | cons a as ih =>
    obtain ⟨ms, hfirst, hmoments⟩ := perform_tells hq a b
    obtain ⟨ms', hrest, hmoments'⟩ := ih ((perform rules a).run.run b).2
    refine ⟨ms ++ ms', hfirst.trans hrest, fun id => ?_⟩
    rw [List.filterMap_append, List.filterMap_append, (hmoments id).1, (hmoments id).2, (hmoments' id).1,
      (hmoments' id).2]
    exact ⟨rfl, rfl⟩

theorem after_onward (rules : Rules ι α) (as : List (Action ι α)) {s : Subscriber} (hb : b.Knows s) :
    Onward s b (b.after rules as) := by
  induction as generalizing b with
  | nil => exact .refl s b
  | cons a as ih =>
    obtain ⟨es, -, hdone⟩ := performBy_happens (performWithin_works rules nestingLimit) none a b
    have hfirst := hdone.onward hb
    exact hfirst.trans (ih (hfirst.knows hb))

theorem after_sound (rules : Rules ι α) (as : List (Action ι α)) (hb : b.Sound) : (b.after rules as).Sound := by
  induction as generalizing b with
  | nil => exact hb
  | cons a as ih =>
    obtain ⟨es, -, hdone⟩ := performBy_happens (performWithin_works rules nestingLimit) none a b
    exact ih (hdone.sound hb)

/-- The stream is subscribed on no channel. -/
def Board.Closed (b : Board ι α) (id : Nat) : Prop := ∀ j, b.subscriptions.count (j, .stream id) = 0

/-- The stream is subscribed once, on this channel. -/
def Board.Serves (b : Board ι α) (i : ι) (id : Nat) : Prop :=
  ∀ j, b.subscriptions.count (j, .stream id) = if j = i then 1 else 0

variable {id : Nat}

theorem Board.Closed.onward (h : Onward (.stream id) b c) (hb : b.Closed id) : c.Closed id := fun j =>
  Nat.le_zero.mp (Nat.le_trans (h.count j) (Nat.le_of_eq (hb j)))

/-- A stream that is still subscribed has been so all the time. -/
theorem Board.Serves.onward (h : Onward (.stream id) b c) (hb : b.Serves i id)
    (hc : (i, .stream id) ∈ c.subscriptions) : c.Serves i id := by
  intro j
  have hcount : c.subscriptions.count (j, .stream id) ≤ b.subscriptions.count (j, .stream id) := h.count j
  have hstill := List.count_pos_iff.mpr hc
  rw [hb j] at hcount
  by_cases hj : j = i
  · subst hj
    rw [if_pos rfl] at hcount ⊢
    exact Nat.le_antisymm hcount hstill
  · rw [if_neg hj] at hcount ⊢
    exact Nat.le_zero.mp hcount

theorem heard_closed (hb : b.Closed id) (ps : List (ι × α)) : b.heard id ps = [] := by
  induction ps with
  | nil => rfl
  | cons p ps ih =>
    rw [Board.heard, List.flatMap_cons, hb p.1]
    exact ih

theorem valuesOn_append (i : ι) (ps qs : List (ι × α)) : valuesOn i (ps ++ qs) = valuesOn i ps ++ valuesOn i qs :=
  List.filterMap_append

theorem heard_serves (hb : b.Serves i id) (ps : List (ι × α)) : b.heard id ps = valuesOn i ps := by
  induction ps with
  | nil => rfl
  | cons p ps ih =>
    rw [Board.heard, List.flatMap_cons, hb p.1, valuesOn, List.filterMap_cons]
    by_cases hp : p.1 = i
    · rw [if_pos hp, if_pos hp]
      exact congrArg (p.2 :: ·) ih
    · rw [if_neg hp, if_neg hp]
      exact ih

theorem along_closed (rules : Rules ι α) (as : List (Action ι α)) (hid : id < b.streams.length) (hb : b.Closed id) :
    b.along rules (fun b a => b.heard id (b.publishes rules a)) as = [] := by
  induction as generalizing b with
  | nil => rfl
  | cons a as ih =>
    have hknows : b.Knows (.stream id) := fun k hk => Subscriber.stream.inj hk ▸ hid
    have hfirst := after_onward rules [a] hknows
    rw [Board.along, heard_closed hb]
    exact ih (Nat.lt_of_lt_of_le hid hfirst.streams) (hb.onward hfirst)

theorem along_serves (rules : Rules ι α) (as : List (Action ι α)) (hid : id < b.streams.length) (hb : b.Serves i id)
    (hstill : (i, .stream id) ∈ (b.after rules as).subscriptions) :
    b.along rules (fun b a => b.heard id (b.publishes rules a)) as =
      valuesOn i (b.along rules (fun b a => b.publishes rules a) as) := by
  induction as generalizing b with
  | nil => rfl
  | cons a as ih =>
    have hknows : b.Knows (.stream id) := fun k hk => Subscriber.stream.inj hk ▸ hid
    have hfirst := after_onward rules [a] hknows
    have hrest := after_onward rules as (hfirst.knows hknows)
    have hthen : (i, .stream id) ∈ (b.after rules [a]).subscriptions :=
      List.count_pos_iff.mp (Nat.lt_of_lt_of_le (List.count_pos_iff.mpr hstill) (hrest.count i))
    rw [Board.along, heard_serves hb, Board.along, valuesOn_append]
    exact congrArg (valuesOn i (b.publishes rules a) ++ ·)
      (ih (Nat.lt_of_lt_of_le hid hfirst.streams) (hb.onward hfirst hthen) hstill)

/-! ## Sessions -/

/-- A stream from its opening on: `opened` is the board when it has been opened, `closing` the
    one before it is closed, and `later` the one at the end. -/
structure Session (rules : Rules ι α) (i : ι) (id : Nat) (opened : Board ι α) (during : List (Action ι α))
    (closing : Board ι α) (after : List (Action ι α)) (later : Board ι α) : Prop where
  empty : opened.queue id = []
  /-- What has been taken when it is closed, and what is left, is what was published meanwhile. -/
  received : opened.along rules (fun b a => b.takes rules id a) during ++ closing.queue id =
    valuesOn i (opened.along rules (fun b a => b.publishes rules a) during)
  /-- What is left can still be taken, and nothing comes after that. -/
  rest : closing.along rules (fun b a => b.takes rules id a) after ++ later.queue id = closing.queue id

theorem openStream_serves (hb : b.Sound) (i : ι) (name : String) :
    (b.openStream i name).Serves i b.streams.length := by
  intro j
  have hnew : b.subscriptions.count (j, .stream b.streams.length) = 0 :=
    List.count_eq_zero.mpr fun hmem => Nat.lt_irrefl _ (hb _ hmem _ rfl)
  simp only [Board.openStream, Board.subscribe, List.count_append, hnew, List.count_singleton, Nat.zero_add, beq_iff_eq,
    Prod.mk.injEq, and_true]
  simp only [eq_comm]

theorem remove_closed (hb : b.Serves i id) : (b.remove i (.stream id)).Closed id := by
  intro j
  rw [Board.remove]
  by_cases hj : j = i
  · subst hj
    rw [List.count_erase_self, hb j, if_pos rfl]
  · have hne : (j, Subscriber.stream id) ≠ (i, .stream id) := fun h => hj (Prod.mk.inj h).1
    rw [List.count_erase_of_ne hne, hb j, if_neg hj]

/-- To close a stream by its name takes its subscription away. -/
theorem closeStream_board (rules : Rules ι α) {name : String} (hname : b.streamId? name = some id)
    (hi : (b.streams[id]?).map (·.channel) = some i) :
    ((perform rules (.closeStream name)).run.run b).2 = b.remove i (.stream id) := by
  obtain ⟨s, hs, rfl⟩ := Option.map_eq_some_iff.mp hi
  have hrun := performBy_closeStream rules (performWithin rules nestingLimit) none name b
  rw [hname, Option.bind_some, hs] at hrun
  exact congrArg Prod.snd hrun

/-- A stream gets the values that are published between its opening and its closing, in order. -/
theorem session_of_a_stream (hq : rules.Passive) (hb : b.Sound) (i : ι) (name : String)
    (during after : List (Action ι α)) {closing : Board ι α} (hclosing : (b.openStream i name).after rules during = closing)
    (hstill : (i, .stream b.streams.length) ∈ closing.subscriptions)
    (hname : closing.streamId? name = some b.streams.length) :
    Session rules i b.streams.length (b.openStream i name) during closing (.closeStream name :: after)
      (closing.after rules (.closeStream name :: after)) := by
  subst hclosing
  have hopened : b.streams.length < (b.openStream i name).streams.length := by simp [Board.openStream]
  have hknows : (b.openStream i name).Knows (.stream b.streams.length) := fun k hk => Subscriber.stream.inj hk ▸ hopened
  have hserves := openStream_serves hb i name
  have honward := after_onward rules during hknows
  obtain ⟨ms, htells, hmoments⟩ := after_tells hq during (b.openStream i name)
  have hempty : (b.openStream i name).queue b.streams.length = [] := by simp [Board.queue, Board.openStream]
  have hchannel : (((b.openStream i name).after rules during).streams[b.streams.length]?).map (·.channel) = some i :=
    (htells.channels _ hopened).trans (by simp [Board.openStream])
  refine ⟨hempty, ?_, ?_⟩
  · have hqueue := htells.queues _ hopened
    rw [hempty, (hmoments _).1, (hmoments _).2, along_serves rules during hopened hserves hstill] at hqueue
    exact hqueue.symm
  · have hclosed := remove_closed (hserves.onward honward hstill)
    have hid : b.streams.length <
        (((b.openStream i name).after rules during).remove i (.stream b.streams.length)).streams.length :=
      Nat.lt_of_lt_of_le hopened honward.streams
    obtain ⟨ms', htells', hmoments'⟩ := after_tells hq after
      (((b.openStream i name).after rules during).remove i (.stream b.streams.length))
    have hqueue := htells'.queues _ hid
    rw [(hmoments' _).1, (hmoments' _).2, along_closed rules after hid hclosed, List.append_nil] at hqueue
    have hboard := closeStream_board rules hname hchannel
    rw [Board.along, after_cons, hboard]
    exact hqueue.symm

/-! ## Passes -/

/-- A value is published on one board, which becomes the other one. -/
structure Pass (rules : Rules ι α) (brings : Action ι α → List (Event ι α) → Prop) (i : ι) (v : α) (b : Board ι α)
    (ts : List (Turn ι α)) (c : Board ι α) : Prop where
  /-- The subscribers of the moment have one turn for each of their entries, and nobody else has. -/
  snapshot : ts.map (·.1) = b.subscribers i
  /-- What is published in a turn is a complete pass itself. -/
  happens : Happens (rules.Follows brings) b (.turns i v ts) c
  tells : Tells b (turnsMoments i v ts) c

structure Complete (rules : Rules ι α) : Prop where
  /-- Also if callbacks choose what they do by what they see. -/
  pass : ∀ perform brings, Works rules brings perform → ∀ i v b,
    ∃ ts, Pass rules brings i v b ts ((publishBy rules perform i v).run b).2
  /-- Callbacks at any depth, which publish by `pass` in turn. -/
  depths : ∀ depth, Works rules Action.Brings (performWithin rules depth)
  /-- No failure of a callback leaves. -/
  returns : ∀ perform received i v guard b,
    ((performBy rules perform received (.publish i v guard)).run.run b).1 = .ok none
  stream : rules.Passive → ∀ signals before i name during after,
    let b := (Board.empty signals).after rules before
    let opened := ((perform rules (.openStream i name)).run.run b).2
    let closing := opened.after rules during
    (i, .stream b.streams.length) ∈ closing.subscriptions → closing.streamId? name = some b.streams.length →
    Session rules i b.streams.length opened during closing (.closeStream name :: after)
      (closing.after rules (.closeStream name :: after))

theorem publish_returns (rules : Rules ι α) (perform : Performer ι α) (received : Option α) (i : ι) (v : α)
    (guard : Option α) (b : Board ι α) :
    ((performBy rules perform received (.publish i v guard)).run.run b).1 = .ok none := by
  cases received with
  | none => rfl
  | some r =>
    cases guard with
    | none => rfl
    | some w =>
      show ((if rules.same r w then pure none
        else do
          publishBy rules perform i v
          pure none : Doing ι α (Option α)).run.run b).1 = _
      split
      · rfl
      · rfl

omit [DecidableEq ι] in
theorem empty_sound (signals : List (ι × α)) : (Board.empty signals).Sound := fun _ hp => nomatch hp

/-- To publish a value is to hand it to the subscribers of the moment, each in turn, whatever they do. -/
theorem publishing_is_a_complete_pass (rules : Rules ι α) : Complete rules := by
  refine ⟨fun perform brings hp i v b => ?_, performWithin_works rules, publish_returns rules, ?_⟩
  · obtain ⟨ts, hts, hround⟩ := publishBy_happens hp i v b
    exact ⟨ts, hts, hround, hround.tells⟩
  · intro hq signals before i name during after b opened closing hstill hname
    exact session_of_a_stream hq (after_sound rules before (empty_sound signals)) i name during after rfl hstill hname

end

/-- One of two values has been taken when the stream is closed, and the other one is left, though
    a callback opens streams of its own, closes them, and fails. -/
theorem stream_of_two_values :
    let rules : Rules Unit Nat :=
      ⟨fun _ => [.openStream () "t", .closeStream "t", .fail], fun v w => v == w⟩
    let b := (Board.empty []).after rules [.subscribe () "a" "1"]
    let opened := ((perform rules (.openStream () "s")).run.run b).2
    let during : List (Action Unit Nat) := [.publish () 1 none, .take "s", .publish () 2 none]
    let closing := opened.after rules during
    let after : List (Action Unit Nat) := [.publish () 3 none, .take "s"]
    let later := closing.after rules (.closeStream "s" :: after)
    Session rules () 0 opened during closing (.closeStream "s" :: after) later ∧
      closing.queue 0 = [2] ∧ later.queue 0 = [] := by
  intro rules b opened during closing after later
  have hpassive : rules.Passive := by simp [Rules.Passive, rules, Action.passive]
  exact ⟨(publishing_is_a_complete_pass rules).stream hpassive [] [.subscribe () "a" "1"] () "s" during after
    (by decide) (by decide), by decide, by decide⟩

/-- The first subscriber takes the second one away, brings a third one in, publishes again, and
    fails: the second one still gets the first value, and the third one only the other. -/
example :
    let rules : Rules Unit Nat := ⟨fun name => if name = "a" then
      [.unsubscribe "2", .subscribe () "c" "3", .publish () 2 (some 2), .fail] else [], fun v w => v == w⟩
    let b := (Board.empty []).after rules [.subscribe () "a" "1", .subscribe () "b" "2"]
    (((publish rules () 1).run b).2.deliveries.map fun d => (d.callback, d.value)) =
      [("a", 1), ("a", 2), ("c", 2), ("b", 1)] := by
  decide

end StepFlow.Channel
