/-
  StepFlow.Proofs.Channel.Rounds — what happens while values are published.

  To publish a value is one round: the subscribers of that moment have their turns, in their
  order. A callback may publish in its turn, subscribe, unsubscribe, open and close streams, and
  fail; so rounds have turns, and turns have rounds, to any depth (`Event`). `Happens` says what
  the board goes through: nothing that happens in a turn keeps the rest of the round from its
  turns, or gives a turn to anybody else.

  What callbacks do may depend on all they see (`Works`): that they act by the actions of
  channels is enough.

  Proved:
  (1) `publishBy_happens`: what is published has its round.
  (2) `performWithin_works`: callbacks act by the actions of channels, however deep they set off
      one another.
  (3) `Happens.tells`: callbacks get what they are handed, in order, and so
      do streams, but for what is taken from them.
-/

import StepFlow.Proofs.Channel.Unsubscribing

namespace StepFlow.Channel

variable {ι α : Type} [DecidableEq ι]

/-- What happens on a board: a value is published, with the turns of its subscribers and what
    happens in each of them; or a value is taken from a stream. -/
inductive Event (ι α : Type) where
  | round (channel : ι) (value : α) (sets : Bool) (turns : List (Subscriber × List (Event ι α)))
  | taking (stream : Nat) (value : α)

abbrev Turn (ι α : Type) := Subscriber × List (Event ι α)

/-- The turns of a round and the events of a turn, one after another. -/
inductive Account (ι α : Type) where
  | events (es : List (Event ι α))
  | turns (channel : ι) (value : α) (ts : List (Turn ι α))

/-! ## Moments -/

inductive Moment (ι α : Type) where
  | begun (channel : ι) (value : α) (sets : Bool)
  | handed (whom : Subscriber) (channel : ι) (value : α)
  | taken (stream : Nat) (value : α)

mutual

def Event.moments : Event ι α → List (Moment ι α)
  | .round i v sets ts => .begun i v sets :: turnsMoments i v ts
  | .taking id v => [.taken id v]

def turnsMoments (i : ι) (v : α) : List (Turn ι α) → List (Moment ι α)
  | [] => []
  | (s, es) :: ts => .handed s i v :: (eventsMoments es ++ turnsMoments i v ts)

def eventsMoments : List (Event ι α) → List (Moment ι α)
  | [] => []
  | e :: es => e.moments ++ eventsMoments es

end

def Account.moments : Account ι α → List (Moment ι α)
  | .events es => eventsMoments es
  | .turns i v ts => turnsMoments i v ts

namespace Moment

def delivery? : Moment ι α → Option (Delivery ι α)
  | .handed (.callback name) i v => some ⟨name, i, v⟩
  | .handed (.stream _) _ _ | .begun .. | .taken .. => none

def queued? (id : Nat) : Moment ι α → Option α
  | .handed (.stream k) _ v => if k = id then some v else none
  | .handed (.callback _) _ _ | .begun .. | .taken .. => none

def taken? (id : Nat) : Moment ι α → Option α
  | .taken k v => if k = id then some v else none
  | .begun .. | .handed .. => none

/-- What a signal is set to. -/
def set? (i : ι) : Moment ι α → Option α
  | .begun j v true => if j = i then some v else none
  | .begun _ _ false | .handed .. | .taken .. => none

end Moment

/-! ## What happens -/

/-- What a call changes that neither publishes nor takes. -/
inductive Alters (b : Board ι α) : Board ι α → Prop
  | subscribe (i : ι) (name handle : String) :
      Alters b ((b.subscribe i (.callback name)).grant handle i (.callback name))
  | remove (i : ι) (s : Subscriber) : Alters b (b.remove i s)
  | openStream (i : ι) (name : String) : Alters b (b.openStream i name)

/-- From one board to another. What a callback does in its turn is up to it. -/
inductive Happens (may : String → List (Event ι α) → Prop) : Board ι α → Account ι α → Board ι α → Prop
  | nothing (b : Board ι α) : Happens may b (.events []) b
  | alter {b c d : Board ι α} {es : List (Event ι α)} : Alters b c → Happens may c (.events es) d →
      Happens may b (.events es) d
  | take {b c : Board ι α} {id : Nat} {s : Stream ι α} {v : α} {rest : List α} {es : List (Event ι α)} :
      b.streams[id]? = some s → s.queue = v :: rest →
      Happens may (b.mapStream id fun s => { s with queue := rest }) (.events es) c →
      Happens may b (.events (.taking id v :: es)) c
  /-- A round is for the subscribers of the moment. -/
  | publish {b c d : Board ι α} {i : ι} {v : α} {ts : List (Turn ι α)} {es : List (Event ι α)} :
      ts.map (·.1) = b.subscribers i → Happens may b (.turns i v ts) c → Happens may c (.events es) d →
      Happens may b (.events (.round i v false ts :: es)) d
  | set {b c d : Board ι α} {i : ι} {v held : α} {ts : List (Turn ι α)} {es : List (Event ι α)} :
      b.value? i = some held → ts.map (·.1) = b.subscribers i → Happens may (b.setValue i v) (.turns i v ts) c →
      Happens may c (.events es) d → Happens may b (.events (.round i v true ts :: es)) d
  | finished (b : Board ι α) (i : ι) (v : α) : Happens may b (.turns i v []) b
  | queue {b c : Board ι α} {i : ι} {v : α} {ts : List (Turn ι α)} (id : Nat) :
      Happens may (b.enqueue id v) (.turns i v ts) c → Happens may b (.turns i v ((.stream id, []) :: ts)) c
  /-- A callback that fails is noted, and the round goes on. -/
  | call {b c c' d : Board ι α} {i : ι} {v : α} {name : String} {es : List (Event ι α)} {ts : List (Turn ι α)} :
      may name es → Happens may (b.deliver name i v) (.events es) c → (c' = c ∨ c' = c.noteFailure i) →
      Happens may c' (.turns i v ts) d → Happens may b (.turns i v ((.callback name, es) :: ts)) d

section

variable {may : String → List (Event ι α) → Prop} {b c d : Board ι α}

theorem Happens.append {es es' : List (Event ι α)} (h : Happens may b (.events es) c)
    (h' : Happens may c (.events es') d) : Happens may b (.events (es ++ es')) d := by
  generalize ha : Account.events es = a at h
  induction h generalizing es with
  | nothing b =>
    cases ha
    exact h'
  | alter hstep _ ih =>
    cases ha
    exact .alter hstep (ih h' rfl)
  | take hs hq _ ih =>
    cases ha
    exact .take hs hq (ih h' rfl)
  | publish hs hround _ _ ih =>
    cases ha
    exact .publish hs hround (ih h' rfl)
  | set hheld hs hround _ _ ih =>
    cases ha
    exact .set hheld hs hround (ih h' rfl)
  | finished | queue | call => cases ha

theorem Alters.happens (h : Alters b c) : Happens may b (.events []) c := .alter h (.nothing c)

/-! ## Callbacks -/

/-- What the first actions of a program bring, one after another; it may end early. -/
inductive Follows (brings : Action ι α → List (Event ι α) → Prop) : List (Action ι α) → List (Event ι α) → Prop
  | stop (as : List (Action ι α)) : Follows brings as []
  | act {a : Action ι α} {as : List (Action ι α)} {es es' : List (Event ι α)} :
      brings a es → Follows brings as es' → Follows brings (a :: as) (es ++ es')

/-- In its turn a callback does what its program says. -/
def Rules.Follows (rules : Rules ι α) (brings : Action ι α → List (Event ι α) → Prop) (name : String)
    (es : List (Event ι α)) : Prop := Channel.Follows brings (rules.program name) es

/-- Whatever a performer does, it does by the actions of channels; an action brings some events. -/
def Works (rules : Rules ι α) (brings : Action ι α → List (Event ι α) → Prop) (perform : Performer ι α) : Prop :=
  ∀ received a b, ∃ es, brings a es ∧ Happens (rules.Follows brings) b (.events es) ((perform received a).run.run b).2

variable {rules : Rules ι α} {brings : Action ι α → List (Event ι α) → Prop} {perform : Performer ι α}

theorem runProgram_happens (hp : Works rules brings perform) (v : α) (as : List (Action ι α)) (b : Board ι α) :
    ∃ es, Follows brings as es ∧
      Happens (rules.Follows brings) b (.events es) ((runProgram perform v as).run.run b).2 := by
  induction as generalizing b with
  | nil => exact ⟨[], .stop [], .nothing b⟩
  | cons a as ih =>
    obtain ⟨es, hbrings, hfirst⟩ := hp (some v) a b
    obtain ⟨es', hfollows, hrest⟩ := ih ((perform (some v) a).run.run b).2
    rw [runProgram, doing_bind]
    cases ((perform (some v) a).run.run b).1 with
    | error m =>
      refine ⟨es ++ [], .act hbrings (.stop as), ?_⟩
      rw [List.append_nil]
      exact hfirst
    | ok o => exact ⟨es ++ es', .act hbrings hfollows, hfirst.append hrest⟩

theorem handTo_happens (hp : Works rules brings perform) (i : ι) (v : α) (s : Subscriber) (b : Board ι α) :
    ∃ es, ∀ ts d, Happens (rules.Follows brings) ((handTo rules perform i v s).run b).2 (.turns i v ts) d →
      Happens (rules.Follows brings) b (.turns i v ((s, es) :: ts)) d := by
  cases s with
  | stream id => exact ⟨[], fun ts d hrest => .queue id hrest⟩
  | callback name =>
    obtain ⟨es, hfollows, hprogram⟩ := runProgram_happens hp v (rules.program name) (b.deliver name i v)
    refine ⟨es, fun ts d hrest => .call hfollows hprogram ?_ hrest⟩
    rw [handTo_callback]
    cases ((runProgram perform v (rules.program name)).run.run (b.deliver name i v)).1 with
    | ok u => exact .inl rfl
    | error m => exact .inr rfl

theorem handToAll_happens (hp : Works rules brings perform) (i : ι) (v : α) (ss : List Subscriber) (b : Board ι α) :
    ∃ ts : List (Turn ι α), ts.map (·.1) = ss ∧
      Happens (rules.Follows brings) b (.turns i v ts) ((handToAll rules perform i v ss).run b).2 := by
  induction ss generalizing b with
  | nil => exact ⟨[], rfl, .finished b i v⟩
  | cons s ss ih =>
    obtain ⟨es, hturn⟩ := handTo_happens hp i v s b
    obtain ⟨ts, hss, hrest⟩ := ih ((handTo rules perform i v s).run b).2
    exact ⟨(s, es) :: ts, congrArg _ hss, hturn ts _ hrest⟩

/-- What is published has its round. -/
theorem publishBy_happens (hp : Works rules brings perform) (i : ι) (v : α) (b : Board ι α) :
    ∃ ts : List (Turn ι α), ts.map (·.1) = b.subscribers i ∧
      Happens (rules.Follows brings) b (.turns i v ts) ((publishBy rules perform i v).run b).2 :=
  handToAll_happens hp i v (b.subscribers i) b

/-! ## Actions -/

/-- The events of an action: a round if it publishes, what it takes from a stream, or none. -/
inductive Action.Brings : Action ι α → List (Event ι α) → Prop
  | nothing (a : Action ι α) : Brings a []
  | publish (i : ι) (v : α) (guard : Option α) (ts : List (Turn ι α)) :
      Brings (.publish i v guard) [.round i v false ts]
  | set (i : ι) (v : α) (ts : List (Turn ι α)) : Brings (.set i v) [.round i v true ts]
  | take (name : String) (id : Nat) (v : α) : Brings (.take name) [.taking id v]

theorem performBy_happens (hp : Works rules brings perform) (received : Option α) (a : Action ι α) (b : Board ι α) :
    ∃ es, a.Brings es ∧
      Happens (rules.Follows brings) b (.events es) ((performBy rules perform received a).run.run b).2 := by
  cases a with
  | subscribe i name handle => exact ⟨[], .nothing _, (Alters.subscribe i name handle).happens⟩
  | unsubscribe handle =>
    refine ⟨[], .nothing _, ?_⟩
    rw [performBy_unsubscribe]
    cases b.handles.lookup handle with
    | none => exact .nothing b
    | some p => exact (Alters.remove p.1 p.2).happens
  | publish i v guard =>
    obtain ⟨ts, hts, hround⟩ := publishBy_happens hp i v b
    have heffect := performBy_effect rules perform received (.publish i v guard) b
    generalize ((performBy rules perform received (.publish i v guard)).run.run b).2 = c at heffect
    cases heffect with
    | publish => exact ⟨_, .publish i v guard ts, .publish hts hround (.nothing _)⟩
    | nothing => exact ⟨[], .nothing _, .nothing b⟩
  | set i v =>
    rw [performBy_set]
    cases hheld : b.value? i with
    | none => exact ⟨[], .nothing _, .nothing b⟩
    | some held =>
      dsimp only
      split
      · exact ⟨[], .nothing _, .nothing b⟩
      · obtain ⟨ts, hts, hround⟩ := publishBy_happens hp i v (b.setValue i v)
        exact ⟨_, .set i v ts, .set hheld hts hround (.nothing _)⟩
  | openStream i name => exact ⟨[], .nothing _, (Alters.openStream i name).happens⟩
  | take name =>
    rw [performBy_take]
    split
    · exact ⟨[], .nothing _, .nothing b⟩
    · rename_i id s hfound
      split
      · exact ⟨[], .nothing _, .nothing b⟩
      · rename_i v rest hqueue
        obtain ⟨id', -, hs⟩ := Option.bind_eq_some_iff.mp hfound
        obtain ⟨s', hs', hpair⟩ := Option.map_eq_some_iff.mp hs
        obtain ⟨rfl, rfl⟩ := Prod.mk.inj hpair
        exact ⟨_, .take name id' v, .take hs' hqueue (.nothing _)⟩
  | closeStream name =>
    refine ⟨[], .nothing _, ?_⟩
    rw [performBy_closeStream]
    split
    · exact .nothing b
    · exact (Alters.remove _ _).happens
  | fail => exact ⟨[], .nothing _, .nothing b⟩
  | failAt which =>
    refine ⟨[], .nothing _, ?_⟩
    rw [performBy_failAt]
    split
    · exact .nothing b
    · exact .nothing b

omit [DecidableEq ι] in
/-- What holds of the events of all actions holds of those of a program. -/
theorem follows_all {P : Event ι α → Prop} {as : List (Action ι α)} {es : List (Event ι α)}
    (h : Channel.Follows Action.Brings as es) (ha : ∀ a ∈ as, ∀ es, a.Brings es → ∀ e ∈ es, P e) : ∀ e ∈ es, P e := by
  induction h with
  | stop => exact nofun
  | act hbrings _ ih =>
    intro e he
    rcases List.mem_append.mp he with he | he
    · exact ha _ List.mem_cons_self _ hbrings e he
    · exact ih (fun a' ha' => ha a' (List.mem_cons_of_mem _ ha')) e he

theorem performWithin_works (rules : Rules ι α) (depth : Nat) :
    Works rules Action.Brings (performWithin rules depth) := by
  induction depth with
  | zero => exact fun _ a b => ⟨[], .nothing a, .nothing b⟩
  | succ depth ih => exact performBy_happens ih

/-- A signal that is set from outside to a new value has its round. -/
theorem set_happens {i : ι} {v held : α} (hheld : b.value? i = some held) (hnew : rules.same v held = false) :
    ∃ ts : List (Turn ι α), ts.map (·.1) = b.subscribers i ∧
      Happens (rules.Follows Action.Brings) (b.setValue i v) (.turns i v ts)
        ((Channel.perform rules (.set i v)).run.run b).2 := by
  obtain ⟨ts, hts, hround⟩ := publishBy_happens (performWithin_works rules nestingLimit) i v (b.setValue i v)
  refine ⟨ts, hts, ?_⟩
  rw [set_board, hheld]
  dsimp only
  rw [if_neg (Bool.eq_false_iff.mp hnew)]
  exact hround

/-! ## Deliveries and queues -/

/-- The moments between two boards: what callbacks are handed is delivered; what a stream is
    handed is queued, and taken from there; a signal holds what it was last set to. -/
structure Tells (b : Board ι α) (ms : List (Moment ι α)) (c : Board ι α) : Prop where
  deliveries : c.deliveries = b.deliveries ++ ms.filterMap Moment.delivery?
  streams : b.streams.length ≤ c.streams.length
  channels : ∀ id < b.streams.length, (c.streams[id]?).map (·.channel) = (b.streams[id]?).map (·.channel)
  queues : ∀ id < b.streams.length,
    b.queue id ++ ms.filterMap (Moment.queued? id) = ms.filterMap (Moment.taken? id) ++ c.queue id
  values : ∀ i held, b.value? i = some held → c.value? i = some ((ms.filterMap (Moment.set? i)).getLastD held)

theorem Tells.refl (b : Board ι α) : Tells b [] b :=
  ⟨(List.append_nil _).symm, Nat.le_refl _, fun _ _ => rfl, fun _ _ => List.append_nil _, fun _ _ => id⟩

theorem Tells.trans {ms ms' : List (Moment ι α)} (h : Tells b ms c) (h' : Tells c ms' d) : Tells b (ms ++ ms') d := by
  refine ⟨?_, Nat.le_trans h.streams h'.streams, fun id hid => ?_, fun id hid => ?_,
    fun i held hheld => ?_⟩
  · rw [h'.deliveries, h.deliveries, List.append_assoc, List.filterMap_append]
  · exact (h'.channels id (Nat.lt_of_lt_of_le hid h.streams)).trans (h.channels id hid)
  · have hfirst := h.queues id hid
    have hrest := h'.queues id (Nat.lt_of_lt_of_le hid h.streams)
    rw [List.filterMap_append, List.filterMap_append, ← List.append_assoc, hfirst, List.append_assoc, hrest,
      List.append_assoc]
  · rw [h'.values i _ (h.values i held hheld), List.filterMap_append]
    simp only [List.getLastD_eq_getLast?, List.getLast?_append]
    cases ((ms'.filterMap (Moment.set? i)).getLast?) <;> rfl

/-- What leaves deliveries, streams and signals as they are. -/
theorem Tells.still (hd : c.deliveries = b.deliveries) (hs : c.streams = b.streams) (hv : c.signals = b.signals) :
    Tells b [] c := by
  refine ⟨by rw [hd]; exact (List.append_nil _).symm, Nat.le_of_eq (congrArg _ hs.symm), fun id _ => by rw [hs],
    fun id _ => ?_, fun i held hheld => ?_⟩
  · rw [Board.queue, Board.queue, hs]
    exact List.append_nil _
  · rw [Board.value?, hv]
    exact hheld

theorem Alters.tells (h : Alters b c) : Tells b [] c := by
  cases h with
  | subscribe | remove => exact .still rfl rfl rfl
  | openStream i name =>
    refine ⟨(List.append_nil _).symm, by simp [Board.openStream], fun id hid => ?_, fun id hid => ?_, fun _ _ => id⟩
    · simp [Board.openStream, List.getElem?_append_left hid]
    · simp [Board.queue, Board.openStream, List.getElem?_append_left hid]

theorem deliver_tells (b : Board ι α) (name : String) (i : ι) (v : α) :
    Tells b [.handed (.callback name) i v] (b.deliver name i v) :=
  ⟨rfl, Nat.le_refl _, fun _ _ => rfl, fun _ _ => List.append_nil _, fun _ _ => id⟩

theorem enqueue_tells (b : Board ι α) (k : Nat) (i : ι) (v : α) :
    Tells b [.handed (.stream k) i v] (b.enqueue k v) := by
  refine ⟨(List.append_nil _).symm, Nat.le_of_eq (List.length_modify _ _ _).symm,
    fun id _ => by apply mapStream_channel; exact fun _ => rfl, fun id hid => ?_, fun _ _ => id⟩
  simp only [Board.queue, Board.enqueue, Board.mapStream, List.getElem?_modify]
  by_cases hk : k = id
  · simp [hk, List.getElem?_eq_getElem hid, Moment.queued?, Moment.taken?]
  · simp [hk, Moment.queued?, Moment.taken?]

theorem take_tells {k : Nat} {s : Stream ι α} {v : α} {rest : List α} (hs : b.streams[k]? = some s)
    (hq : s.queue = v :: rest) : Tells b [.taken k v] (b.mapStream k fun s => { s with queue := rest }) := by
  refine ⟨(List.append_nil _).symm, Nat.le_of_eq (List.length_modify _ _ _).symm,
    fun id _ => by apply mapStream_channel; exact fun _ => rfl, fun id hid => ?_, fun _ _ => id⟩
  simp only [Board.queue, Board.mapStream, List.getElem?_modify]
  by_cases hk : k = id
  · subst hk
    simp [hs, hq, Moment.queued?, Moment.taken?]
  · simp [hk, Moment.queued?, Moment.taken?]

theorem begun_tells (b : Board ι α) (i : ι) (v : α) : Tells b [.begun i v false] b :=
  ⟨(List.append_nil _).symm, Nat.le_refl _, fun _ _ => rfl, fun _ _ => List.append_nil _, fun _ _ => id⟩

theorem setValue_tells (b : Board ι α) (i : ι) (v : α) : Tells b [.begun i v true] (b.setValue i v) := by
  refine ⟨(List.append_nil _).symm, Nat.le_refl _, fun _ _ => rfl, fun _ _ => List.append_nil _, fun j held hheld => ?_⟩
  by_cases hj : i = j
  · subst hj
    rw [setValue_same, hheld]
    simp [Moment.set?]
  · rw [setValue_other b (fun h => hj h.symm), hheld]
    simp [Moment.set?, hj]

theorem Happens.tells {a : Account ι α} (h : Happens may b a c) : Tells b a.moments c := by
  induction h with
  | nothing b => exact .refl b
  | finished b => exact .refl b
  | alter hstep _ ih => exact hstep.tells.trans ih
  | take hs hq _ ih => exact (take_tells hs hq).trans ih
  | @publish b c d i v ts es _ _ _ ih ih' => exact ((begun_tells b i v).trans ih).trans ih'
  | @set b c d i v held ts es _ _ _ _ ih ih' => exact ((setValue_tells b i v).trans ih).trans ih'
  | @queue b c i v ts id _ ih => exact (enqueue_tells b id i v).trans ih
  | @call b c c' d i v name es ts _ _ hfails _ ih ih' =>
    have hnoted : Tells c [] c' := by rcases hfails with rfl | rfl <;> exact .still rfl rfl rfl
    exact (deliver_tells b name i v).trans (ih.trans (hnoted.trans ih'))

/-! ## Subscriptions -/

/-- From one board to another. Without being subscribed, a subscriber is subscribed no more often
    than before. -/
structure Onward (s : Subscriber) (b c : Board ι α) : Prop where
  streams : b.streams.length ≤ c.streams.length
  grants : ∀ j, b.grants j s ≤ c.grants j s
  count : ∀ j, c.subscriptions.count (j, s) + b.grants j s ≤ b.subscriptions.count (j, s) + c.grants j s

variable {s : Subscriber}

theorem Passes.onward {i : ι} {vs : List α} (h : Passes i s b vs c) : Onward s b c := ⟨h.streams, h.grants, h.count⟩

theorem Onward.refl (s : Subscriber) (b : Board ι α) : Onward s b b :=
  ⟨Nat.le_refl _, fun _ => Nat.le_refl _, fun _ => Nat.le_refl _⟩

theorem Onward.trans (h : Onward s b c) (h' : Onward s c d) : Onward s b d := by
  refine ⟨Nat.le_trans h.streams h'.streams, fun j => Nat.le_trans (h.grants j) (h'.grants j), fun j => ?_⟩
  have hfirst := h.count j
  have hsecond := h'.count j
  omega

theorem Onward.knows (h : Onward s b c) (hb : b.Knows s) : c.Knows s :=
  fun id hid => Nat.lt_of_lt_of_le (hb id hid) h.streams

/-- Subscriptions and handles are as they were, and no stream has been opened. -/
structure Rests (b c : Board ι α) : Prop where
  streams : c.streams.length = b.streams.length
  subscriptions : c.subscriptions = b.subscriptions
  handles : c.handles = b.handles

/-- What calls do that change subscriptions, and what else happens leaves be, is done by all that
    happens. -/
theorem Happens.through {R : Board ι α → Board ι α → Prop} (htrans : ∀ {b c d}, R b c → R c d → R b d)
    (halters : ∀ {b c}, Alters b c → R b c) (hrests : ∀ {b c}, Rests b c → R b c) {a : Account ι α}
    (h : Happens may b a c) : R b c := by
  induction h with
  | nothing b => exact hrests ⟨rfl, rfl, rfl⟩
  | finished b => exact hrests ⟨rfl, rfl, rfl⟩
  | alter hstep _ ih => exact htrans (halters hstep) ih
  | take _ _ _ ih =>
    refine htrans (hrests ?_) ih
    exact ⟨List.length_modify _ _ _, rfl, rfl⟩
  | publish _ _ _ ih ih' => exact htrans ih ih'
  | set _ _ _ _ ih ih' =>
    refine htrans (htrans (hrests ?_) ih) ih'
    exact ⟨rfl, rfl, rfl⟩
  | queue id _ ih =>
    refine htrans (hrests ?_) ih
    exact ⟨List.length_modify _ _ _, rfl, rfl⟩
  | call _ _ hfails _ ih ih' =>
    refine htrans (htrans (hrests ?_) ih) (htrans (hrests ?_) ih')
    · exact ⟨rfl, rfl, rfl⟩
    · rcases hfails with rfl | rfl <;> exact ⟨rfl, rfl, rfl⟩

theorem Rests.onward (h : Rests b c) : Onward s b c := by
  have hgrants : ∀ j, c.grants j s = b.grants j s := fun j => by cases s <;> simp [Board.grants, h.handles]
  exact ⟨Nat.le_of_eq h.streams.symm, fun j => Nat.le_of_eq (hgrants j).symm, fun j => by
    rw [h.subscriptions, hgrants j]⟩

theorem Alters.onward (h : Alters b c) (hb : b.Knows s) : Onward s b c := by
  cases h with
  | subscribe i name handle => exact (subscribe_passes (i := i) b i name handle).onward
  | remove i t => exact (remove_passes (i := i) b i t).onward
  | openStream i name => exact (openStream_passes (i := i) hb i name).onward

theorem Happens.onward {a : Account ι α} (h : Happens may b a c) (hb : b.Knows s) : Onward s b c :=
  h.through (R := fun b c => b.Knows s → Onward s b c)
    (fun hbc hcd hb => (hbc hb).trans (hcd ((hbc hb).knows hb))) (fun halters => halters.onward)
    (fun hrests _ => hrests.onward) hb

/-- Nobody listens to a stream that has not been opened. -/
def Board.Sound (b : Board ι α) : Prop := ∀ p ∈ b.subscriptions, b.Knows p.2

omit [DecidableEq ι] in
theorem Rests.sound (h : Rests b c) (hb : b.Sound) : c.Sound := by
  intro p hp id hid
  rw [h.subscriptions] at hp
  rw [h.streams]
  exact hb p hp id hid

theorem Alters.sound (h : Alters b c) (hb : b.Sound) : c.Sound := by
  cases h with
  | subscribe i name handle =>
    intro p hp id hid
    rcases List.mem_append.mp hp with hp | hp
    · exact hb p hp id hid
    · rw [List.mem_singleton.mp hp] at hid
      cases hid
  | remove i t => exact fun p hp => hb p (List.mem_of_mem_erase hp)
  | openStream i name =>
    intro p hp id hid
    have hone : (b.openStream i name).streams.length = b.streams.length + 1 := by simp [Board.openStream]
    rw [hone]
    rcases List.mem_append.mp hp with hp | hp
    · exact Nat.lt_succ_of_lt (hb p hp id hid)
    · rw [List.mem_singleton.mp hp] at hid
      obtain rfl := Subscriber.stream.inj hid
      exact Nat.lt_succ_self _

theorem Happens.sound {a : Account ι α} (h : Happens may b a c) (hb : b.Sound) : c.Sound :=
  h.through (R := fun b c => b.Sound → c.Sound) (fun hbc hcd => hcd ∘ hbc) Alters.sound Rests.sound hb

end

end StepFlow.Channel
