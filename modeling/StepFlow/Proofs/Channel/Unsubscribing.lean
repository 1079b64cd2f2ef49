/-
  StepFlow.Proofs.Channel.Unsubscribing — which subscription goes when one is given back.

  A channel knows its subscriptions by their subscribers only. To give one back is to take the
  first subscription of the same subscriber away, whichever was meant. The ledger of all calls
  tells them apart: it has what the channel is left with (`Ledger.left`), and the subscriptions
  that were never given back, each by its own handle (`Ledger.due`).

  Calls come from outside and from callbacks, also while a value is published, and at any depth
  of publishing.

  Proved, for every sequence of calls:
  (1) `after_moves`: a board has the subscriptions that its ledger is left with.
  (2) `after_within`, `after_perm`: nobody is left that is not due; and all are, in some order,
      if nothing is given back twice.
  (3) `harmless_iff`: what is left is what is due, in order, exactly as long as no call takes
      away another subscription than its own (`Ledger.Harmless`).
  (4) `harmless_alone`: none does as long as nobody is subscribed twice at once, and nothing is
      given back twice.
  (5) `publishBy_moves`: a value goes to the subscribers of the moment, in order.
-/

import StepFlow.Proofs.Channel.Receiving

namespace StepFlow.Channel

variable {ι α : Type} [DecidableEq ι]

/-! ## The ledger -/

/-- What stands for a subscription: a handle, or the stream that was opened with it. -/
inductive Holder where
  | handle (name : String)
  | stream (id : Nat)
  deriving DecidableEq

/-- A call that makes a subscription, or gives one back. -/
inductive Call (ι : Type) where
  | subscribe (whose : ι × Subscriber) (holder : Holder)
  | unsubscribe (holder : Holder)

/-- A subscription that was made, and whether it has been given back. -/
structure Entry (ι : Type) where
  whose : ι × Subscriber
  holder : Holder
  ended : Bool

structure Ledger (ι : Type) where
  /-- All subscriptions ever made, the latest first. -/
  made : List (Entry ι)
  /-- The subscriptions that channels are left with, in their order. -/
  left : List (ι × Subscriber)

/-- The subscriptions among these that have not been given back, in their order. -/
def due (made : List (Entry ι)) : List (ι × Subscriber) := ((made.filter (!·.ended)).map (·.whose)).reverse

/-- What a holder stands for: a handle that is used again stands for the latest. -/
def standsFor (made : List (Entry ι)) (h : Holder) : Option (ι × Subscriber) :=
  (made.find? (·.holder = h)).map (·.whose)

def giveBack (h : Holder) : List (Entry ι) → List (Entry ι)
  | [] => []
  | e :: es => if e.holder = h then { e with ended := true } :: es else e :: giveBack h es

/-- To give back what this holder stands for takes away no other subscription: if it is given
    back for the first time, all that are due from the first one of its subscriber up to its
    own are of that subscriber; else no subscription of its subscriber is due. -/
def Harmless (made : List (Entry ι)) (h : Holder) : Prop :=
  match made.dropWhile (·.holder ≠ h) with
  | [] => True
  | e :: older =>
    if e.ended then e.whose ∉ due made else ∀ p ∈ (due older).dropWhile (· != e.whose), p = e.whose

/-- What this holder stands for has not been given back. -/
def Fresh (made : List (Entry ι)) (h : Holder) : Prop := ∀ e, made.find? (·.holder = h) = some e → e.ended = false

namespace Ledger

def empty : Ledger ι := ⟨[], []⟩

def due (l : Ledger ι) : List (ι × Subscriber) := Channel.due l.made

def step (l : Ledger ι) : Call ι → Ledger ι
  | .subscribe p h => ⟨⟨p, h, false⟩ :: l.made, l.left ++ [p]⟩
  | .unsubscribe h =>
    ⟨giveBack h l.made, match standsFor l.made h with | some p => l.left.erase p | none => l.left⟩

def after (l : Ledger ι) (ks : List (Call ι)) : Ledger ι := ks.foldl step l

/-- No call takes away another subscription than its own. -/
def Harmless (l : Ledger ι) : List (Call ι) → Prop
  | [] => True
  | .subscribe p h :: ks => (l.step (.subscribe p h)).Harmless ks
  | .unsubscribe h :: ks => Channel.Harmless l.made h ∧ (l.step (.unsubscribe h)).Harmless ks

/-- Nothing is given back twice. -/
def Once (l : Ledger ι) : List (Call ι) → Prop
  | [] => True
  | .subscribe p h :: ks => (l.step (.subscribe p h)).Once ks
  | .unsubscribe h :: ks => Fresh l.made h ∧ (l.step (.unsubscribe h)).Once ks

end Ledger

section

omit [DecidableEq ι]

theorem due_append (es fs : List (Entry ι)) : due (es ++ fs) = due fs ++ due es := by
  simp only [due, List.filter_append, List.map_append, List.reverse_append]

theorem due_cons (e : Entry ι) (es : List (Entry ι)) : due (e :: es) = due es ++ if e.ended then [] else [e.whose] := by
  rw [← List.singleton_append, due_append]
  cases h : e.ended <;> simp [due, h]

theorem due_middle (newer : List (Entry ι)) (e : Entry ι) (older : List (Entry ι)) :
    due (newer ++ e :: older) = due older ++ (if e.ended then [] else [e.whose]) ++ due newer := by
  rw [due_append, due_cons]

theorem due_ended (newer : List (Entry ι)) (e : Entry ι) (older : List (Entry ι)) :
    due (newer ++ { e with ended := true } :: older) = due older ++ due newer := by
  rw [due_middle, if_pos rfl, List.append_nil]

/-- A holder stands for nothing, or for one of the subscriptions that were made. -/
theorem entry_cases (made : List (Entry ι)) (h : Holder) :
    (made.find? (·.holder = h) = none ∧ made.dropWhile (·.holder ≠ h) = [] ∧ giveBack h made = made) ∨
      ∃ newer e older, made = newer ++ e :: older ∧ made.find? (·.holder = h) = some e ∧
        made.dropWhile (·.holder ≠ h) = e :: older ∧ giveBack h made = newer ++ { e with ended := true } :: older := by
  induction made with
  | nil => exact .inl ⟨rfl, rfl, rfl⟩
  | cons e es ih =>
    by_cases he : e.holder = h
    · exact .inr ⟨[], e, es, rfl, by simp [he], by simp [he], by simp [giveBack, he]⟩
    · have hskip : (e :: es).find? (·.holder = h) = es.find? (·.holder = h) ∧
          (e :: es).dropWhile (·.holder ≠ h) = es.dropWhile (·.holder ≠ h) :=
        ⟨List.find?_cons_of_neg (by simpa using he), List.dropWhile_cons_of_pos (by simpa using he)⟩
      simp only [giveBack, if_neg he]
      rcases ih with ⟨hfind, hdrop, hback⟩ | ⟨newer, d, older, hes, hfind, hdrop, hback⟩
      · exact .inl ⟨(hskip.1).trans hfind, (hskip.2).trans hdrop, by rw [hback]⟩
      · exact .inr ⟨e :: newer, d, older, by rw [hes]; rfl, (hskip.1).trans hfind, (hskip.2).trans hdrop,
          by rw [hback]; rfl⟩

/-- Who has been given something back is still told apart from the others. -/
theorem standsFor_giveBack (made : List (Entry ι)) (h h' : Holder) :
    standsFor (giveBack h made) h' = standsFor made h' := by
  induction made with
  | nil => rfl
  | cons e es ih =>
    unfold standsFor at ih ⊢
    by_cases he : e.holder = h
    · simp only [giveBack, if_pos he, List.find?_cons]
      cases decide (e.holder = h') <;> rfl
    · simp only [giveBack, if_neg he, List.find?_cons]
      cases decide (e.holder = h')
      · exact ih
      · rfl

theorem giveBack_none {made : List (Entry ι)} {h : Holder} (hnone : standsFor made h = none) :
    giveBack h made = made := by
  rcases entry_cases made h with ⟨-, -, hback⟩ | ⟨newer, e, older, -, hfind, -, -⟩
  · exact hback
  · rw [standsFor, hfind] at hnone
    cases hnone

theorem standsFor_cons (e : Entry ι) (es : List (Entry ι)) (h : Holder) :
    standsFor (e :: es) h = if e.holder = h then some e.whose else standsFor es h := by
  unfold standsFor
  by_cases he : e.holder = h <;> simp [he]

end

theorem erase_middle_iff {β : Type} [BEq β] [LawfulBEq β] (xs ys : List β) (p : β) :
    (xs ++ p :: ys).erase p = xs ++ ys ↔ ∀ q ∈ xs.dropWhile (· != p), q = p := by
  induction xs with
  | nil => simp
  | cons x xs ih =>
    by_cases hx : x = p
    · subst hx
      have hshift : xs ++ x :: ys = x :: (xs ++ ys) ↔ ∀ q ∈ xs, q = x := by
        clear ih
        induction xs with
        | nil => simp
        | cons y xs ih =>
          rw [List.cons_append, List.cons_append, List.cons_eq_cons, List.forall_mem_cons]
          constructor
          · rintro ⟨rfl, h⟩
            exact ⟨rfl, ih.mp h⟩
          · rintro ⟨rfl, h⟩
            exact ⟨rfl, ih.mpr h⟩
      simpa using hshift
    · rw [List.cons_append, List.erase_cons_tail (by simpa using hx), List.cons_append, List.cons_inj_right, ih,
        List.dropWhile_cons_of_pos (by simpa using hx)]

/-! ## What is left and what is due -/

section

variable {l : Ledger ι}

theorem step_due_iff (hl : l.left = l.due) (h : Holder) :
    (l.step (.unsubscribe h)).left = (l.step (.unsubscribe h)).due ↔ Harmless l.made h := by
  rcases entry_cases l.made h with ⟨hfind, hdrop, hback⟩ | ⟨newer, e, older, hmade, hfind, hdrop, hback⟩
  · simp only [Ledger.step, Ledger.due, standsFor, Harmless, hfind, hdrop, hback]
    exact iff_of_true hl trivial
  · simp only [Ledger.step, Ledger.due, standsFor, Harmless, hfind, hdrop, hback, Option.map_some, hl]
    by_cases he : e.ended = true
    · have hsame : due l.made = due older ++ due newer := by
        rw [hmade, due_middle, if_pos he, List.append_nil]
      rw [if_pos he, due_ended, ← hsame]
      exact List.erase_eq_self_iff
    · rw [if_neg he, due_ended, hmade, due_middle, if_neg he, List.append_assoc]
      exact erase_middle_iff _ _ _

/-- What is left is what is due at every moment, exactly if no call takes another subscription than its own. -/
theorem harmless_iff (hl : l.left = l.due) (ks : List (Call ι)) :
    l.Harmless ks ↔ ∀ ks', ks' <+: ks → (l.after ks').left = (l.after ks').due := by
  induction ks generalizing l with
  | nil => exact ⟨fun _ ks' hks => by rw [List.prefix_nil.mp hks]; exact hl, fun _ => trivial⟩
  | cons k ks ih =>
    -- the moments are the one now and those after the first call
    have hmoments : (∀ ks', ks' <+: k :: ks → (l.after ks').left = (l.after ks').due) ↔
        ∀ ks', ks' <+: ks → ((l.step k).after ks').left = ((l.step k).after ks').due := by
      constructor
      · exact fun h ks' hks => h (k :: ks') ((List.prefix_cons_inj k).mpr hks)
      · intro h ks' hks
        rcases List.prefix_cons_iff.mp hks with rfl | ⟨ks'', rfl, hks'⟩
        · exact hl
        · exact h ks'' hks'
    rw [hmoments]
    cases k with
    | subscribe p h =>
      have hstep : (l.step (.subscribe p h)).left = (l.step (.subscribe p h)).due := by
        simp only [Ledger.step, Ledger.due, due_cons]
        rw [hl]
        rfl
      exact ih hstep
    | unsubscribe h =>
      constructor
      · exact fun ⟨hfirst, hrest⟩ => (ih ((step_due_iff hl h).mpr hfirst)).mp hrest
      · intro hall
        have hstep := hall [] (List.nil_prefix)
        exact ⟨(step_due_iff hl h).mp hstep, (ih hstep).mpr hall⟩

/-- To give something back for the first time makes it due no more. -/
theorem due_giveBack_perm {h : Holder} (hfresh : Fresh l.made h) {p : ι × Subscriber}
    (hp : standsFor l.made h = some p) : ((due l.made).erase p).Perm (due (giveBack h l.made)) := by
  rcases entry_cases l.made h with ⟨hfind, -, -⟩ | ⟨newer, e, older, hmade, hfind, -, hback⟩
  · rw [standsFor, hfind] at hp
    cases hp
  · rw [standsFor, hfind] at hp
    obtain rfl := Option.some.inj hp
    have hlive : ¬ e.ended = true := by
      rw [hfresh e hfind]
      decide
    rw [hback, due_ended, hmade, due_middle, if_neg hlive, List.append_assoc]
    have hmiddle : ((due older ++ e.whose :: due newer).erase e.whose).Perm
        ((e.whose :: (due older ++ due newer)).erase e.whose) := List.perm_middle.erase e.whose
    rw [List.erase_cons_head] at hmiddle
    exact hmiddle

omit [DecidableEq ι] in
theorem due_giveBack_again {h : Holder} (hagain : ¬ Fresh l.made h) : due (giveBack h l.made) = due l.made := by
  rcases entry_cases l.made h with ⟨-, -, hback⟩ | ⟨newer, e, older, hmade, hfind, -, hback⟩
  · rw [hback]
  · have hended : e.ended = true := by
      by_contra hlive
      refine hagain fun d hd => ?_
      rw [hfind] at hd
      rw [← Option.some.inj hd]
      exact Bool.eq_false_iff.mpr hlive
    rw [hback, due_ended, hmade, due_middle, if_pos hended, List.append_nil]

/-- What is given back for the first time, by a subscriber with no other subscription, is its own. -/
theorem harmless_alone {made : List (Entry ι)} {h : Holder} (hfresh : Fresh made h) (honce : (due made).Nodup) :
    Harmless made h := by
  rcases entry_cases made h with ⟨-, hdrop, -⟩ | ⟨newer, e, older, hmade, hfind, hdrop, -⟩
  · rw [Harmless, hdrop]
    trivial
  · have hlive : ¬ e.ended = true := by
      rw [hfresh e hfind]
      decide
    rw [Harmless, hdrop]
    dsimp only
    rw [if_neg hlive]
    rw [hmade, due_middle, if_neg hlive] at honce
    have hnone : ∀ p ∈ due older, (p != e.whose) = true := fun p hp => bne_iff_ne.mpr fun he =>
      List.disjoint_of_nodup_append (List.nodup_append.mp honce).1 hp (he ▸ List.mem_singleton.mpr rfl)
    rw [List.dropWhile_eq_nil_iff.mpr hnone]
    exact nofun

/-- Nobody is left that is not due. -/
theorem step_within (hl : l.left.Subperm l.due) (k : Call ι) : (l.step k).left.Subperm (l.step k).due := by
  cases k with
  | subscribe p h =>
    simp only [Ledger.step, Ledger.due, due_cons]
    exact (List.subperm_append_right [p]).mpr hl
  | unsubscribe h =>
    by_cases hfresh : Fresh l.made h
    · cases hp : standsFor l.made h with
      | none =>
        simp only [Ledger.step, hp, Ledger.due, giveBack_none hp]
        exact hl
      | some p =>
        simp only [Ledger.step, hp]
        exact (due_giveBack_perm hfresh hp).subperm_left.mp (hl.erase p)
    · have hsame : (l.step (.unsubscribe h)).due = l.due := due_giveBack_again hfresh
      rw [hsame]
      refine List.Subperm.trans ?_ hl
      simp only [Ledger.step]
      split
      · exact List.erase_subperm _ _
      · exact .refl _

theorem after_within (hl : l.left.Subperm l.due) (ks : List (Call ι)) :
    (l.after ks).left.Subperm (l.after ks).due := by
  induction ks generalizing l with
  | nil => exact hl
  | cons k ks ih => exact ih (step_within hl k)

theorem after_perm (hl : l.left.Perm l.due) {ks : List (Call ι)} (honce : l.Once ks) :
    (l.after ks).left.Perm (l.after ks).due := by
  induction ks generalizing l with
  | nil => exact hl
  | cons k ks ih =>
    cases k with
    | subscribe p h =>
      refine ih ?_ honce
      simp only [Ledger.step, Ledger.due, due_cons]
      exact hl.append_right [p]
    | unsubscribe h =>
      refine ih ?_ honce.2
      cases hp : standsFor l.made h with
      | none =>
        simp only [Ledger.step, hp, Ledger.due, giveBack_none hp]
        exact hl
      | some p =>
        simp only [Ledger.step, hp]
        exact (hl.erase p).trans (due_giveBack_perm honce.1 hp)

end

/-! ## Boards and their ledgers -/

/-- The ledger of a board. -/
structure Keeps (l : Ledger ι) (b : Board ι α) : Prop where
  left : b.subscriptions = l.left
  handles : ∀ h, b.handles.lookup h = standsFor l.made (.handle h)
  streams : ∀ id, (b.streams[id]?).map (fun s => (s.channel, Subscriber.stream id)) = standsFor l.made (.stream id)

/-- From one board to another by these calls, with these deliveries. -/
structure Moves (ks : List (Call ι)) (ds : List (Delivery ι α)) (b c : Board ι α) : Prop where
  keeps : ∀ l, Keeps l b → Keeps (l.after ks) c
  deliveries : c.deliveries = b.deliveries ++ ds

section

variable {b c d : Board ι α}

omit [DecidableEq ι] in
theorem empty_keeps (signals : List (ι × α)) : Keeps Ledger.empty (Board.empty signals) :=
  ⟨rfl, fun _ => rfl, fun _ => rfl⟩

/-- What leaves subscriptions, handles and the channels of streams as they are. -/
theorem Moves.still (hs : c.subscriptions = b.subscriptions) (hh : c.handles = b.handles)
    (hc : ∀ id : Nat, (c.streams[id]?).map (·.channel) = (b.streams[id]?).map (·.channel)) {ds : List (Delivery ι α)}
    (hd : c.deliveries = b.deliveries ++ ds) : Moves [] ds b c := by
  refine ⟨fun l hl => ⟨hs.trans hl.left, fun h => by rw [hh]; exact hl.handles h, fun id => ?_⟩, hd⟩
  have hchannel := congrArg (Option.map fun i => (i, Subscriber.stream id)) (hc id)
  rw [Option.map_map, Option.map_map] at hchannel
  exact hchannel.trans (hl.streams id)

theorem Moves.refl (b : Board ι α) : Moves [] [] b b := .still rfl rfl (fun _ => rfl) (List.append_nil _).symm

theorem deliver_moves (b : Board ι α) (name : String) (i : ι) (v : α) :
    Moves [] [⟨name, i, v⟩] b (b.deliver name i v) :=
  .still (b := b) (c := b.deliver name i v) rfl rfl (fun _ => rfl) rfl

theorem noteFailure_moves (b : Board ι α) (i : ι) : Moves [] [] b (b.noteFailure i) :=
  .still (b := b) (c := b.noteFailure i) rfl rfl (fun _ => rfl) (List.append_nil _).symm

theorem setValue_moves (b : Board ι α) (i : ι) (v : α) : Moves [] [] b (b.setValue i v) :=
  .still (b := b) (c := b.setValue i v) rfl rfl (fun _ => rfl) (List.append_nil _).symm

omit [DecidableEq ι] in
theorem mapStream_channel (b : Board ι α) (k : Nat) {f : Stream ι α → Stream ι α} (hf : ∀ s, (f s).channel = s.channel)
    (id : Nat) : ((b.mapStream k f).streams[id]?).map (·.channel) = (b.streams[id]?).map (·.channel) := by
  rw [Board.mapStream, List.getElem?_modify]
  cases b.streams[id]? with
  | none => rfl
  | some s =>
    refine congrArg some ?_
    dsimp only
    split
    · exact hf s
    · rfl

theorem mapStream_moves (b : Board ι α) (id : Nat) {f : Stream ι α → Stream ι α}
    (hf : ∀ s, (f s).channel = s.channel) : Moves [] [] b (b.mapStream id f) :=
  .still (b := b) (c := b.mapStream id f) rfl rfl (mapStream_channel b id hf) (List.append_nil _).symm

theorem Moves.trans {ks ks' : List (Call ι)} {ds ds' : List (Delivery ι α)} (h : Moves ks ds b c)
    (h' : Moves ks' ds' c d) : Moves (ks ++ ks') (ds ++ ds') b d := by
  refine ⟨fun l hl => ?_, by rw [h'.deliveries, h.deliveries, List.append_assoc]⟩
  rw [Ledger.after, List.foldl_append]
  exact h'.keeps _ (h.keeps l hl)

theorem subscribe_moves (b : Board ι α) (i : ι) (name handle : String) :
    Moves [.subscribe (i, .callback name) (.handle handle)] [] b
      ((b.subscribe i (.callback name)).grant handle i (.callback name)) := by
  refine ⟨fun l hl => ⟨?_, fun h => ?_, fun id => ?_⟩, (List.append_nil _).symm⟩
  · exact congrArg (· ++ [(i, .callback name)]) hl.left
  · rw [Ledger.after, List.foldl_cons, List.foldl_nil, Ledger.step, standsFor_cons, ← hl.handles h]
    by_cases hh : h = handle
    · subst hh
      simp [Board.grant]
    · have hne : ¬ Holder.handle handle = .handle h := fun heq => hh (Holder.handle.inj heq).symm
      rw [if_neg hne]
      exact (List.lookup_cons).trans (by rw [beq_false_of_ne hh]; rfl)
  · exact hl.streams id

theorem openStream_moves (b : Board ι α) (i : ι) (name : String) :
    Moves [.subscribe (i, .stream b.streams.length) (.stream b.streams.length)] [] b (b.openStream i name) := by
  refine ⟨fun l hl => ⟨?_, hl.handles, fun id => ?_⟩, (List.append_nil _).symm⟩
  · exact congrArg (· ++ [(i, .stream b.streams.length)]) hl.left
  · rw [Ledger.after, List.foldl_cons, List.foldl_nil, Ledger.step, standsFor_cons, ← hl.streams id]
    by_cases hid : b.streams.length = id
    · subst hid
      simp [Board.openStream]
    · have hne : ¬ Holder.stream b.streams.length = .stream id := fun heq => hid (Holder.stream.inj heq)
      rw [if_neg hne]
      show Option.map _ ((b.streams ++ [(⟨name, i, []⟩ : Stream ι α)])[id]?) = _
      rcases Nat.lt_or_gt_of_ne hid with hlt | hlt
      · rw [List.getElem?_eq_none (by simpa using hlt), List.getElem?_eq_none (Nat.le_of_lt hlt)]
      · rw [List.getElem?_append_left hlt]

theorem remove_moves {h : Holder} {p : ι × Subscriber} (hp : ∀ l : Ledger ι, Keeps l b → standsFor l.made h = some p) :
    Moves [.unsubscribe h] [] b (b.remove p.1 p.2) := by
  refine ⟨fun l hl => ⟨?_, fun h' => ?_, fun id => ?_⟩, (List.append_nil _).symm⟩
  · simp only [Ledger.after, List.foldl_cons, List.foldl_nil, Ledger.step, hp l hl, Board.remove, hl.left]
  · exact (hl.handles h').trans (standsFor_giveBack l.made h _).symm
  · exact (hl.streams id).trans (standsFor_giveBack l.made h _).symm

/-- To give back what no handle stands for changes nothing. -/
theorem unknown_moves {h : String} (hh : b.handles.lookup h = none) : Moves [.unsubscribe (.handle h)] [] b b := by
  refine ⟨fun l hl => ?_, (List.append_nil _).symm⟩
  have hnone : standsFor l.made (.handle h) = none := (hl.handles h).symm.trans hh
  have hsame : l.step (.unsubscribe (.handle h)) = l := by
    rw [Ledger.step, hnone, giveBack_none hnone]
  rw [Ledger.after, List.foldl_cons, List.foldl_nil, hsame]
  exact hl

end

/-! ## Actions -/

namespace Action

/-- Actions that may find nothing to do, or fail. -/
def idles : Action ι α → Bool
  | .publish .. | .set .. | .take _ | .closeStream _ | .fail | .failAt _ => true
  | .subscribe .. | .unsubscribe _ | .openStream .. => false

/-- The call that an action makes. -/
def makes : Action ι α → Call ι → Prop
  | .subscribe i name handle, k => k = .subscribe (i, .callback name) (.handle handle)
  | .unsubscribe handle, k => k = .unsubscribe (.handle handle)
  | .openStream i _, k => ∃ id, k = .subscribe (i, .stream id) (.stream id)
  | .closeStream _, k => ∃ id, k = .unsubscribe (.stream id)
  | .publish .., _ | .set .., _ | .take _, _ | .fail, _ | .failAt _, _ => False

end Action

/-- A callback may make the call. -/
def Rules.Makes (rules : Rules ι α) (k : Call ι) : Prop := ∃ name, ∃ a ∈ rules.program name, a.makes k

/-- The calls that an action from outside makes, and sets off. -/
def Rules.Causes (rules : Rules ι α) (a : Action ι α) (ks : List (Call ι)) : Prop :=
  match a with
  | .subscribe .. | .unsubscribe _ | .openStream .. => ∃ k, ks = [k] ∧ a.makes k
  | .closeStream _ => ks = [] ∨ ∃ k, ks = [k] ∧ a.makes k
  | .publish .. | .set .. => ∀ k ∈ ks, rules.Makes k
  | .take _ | .fail | .failAt _ => ks = []

/-- What an action does to the board, the actions that it sets off apart. -/
inductive Effect (rules : Rules ι α) (perform : Performer ι α) (b : Board ι α) : Action ι α → Board ι α → Prop
  | subscribe (i : ι) (name handle : String) :
      Effect rules perform b (.subscribe i name handle)
        ((b.subscribe i (.callback name)).grant handle i (.callback name))
  | unsubscribe {handle : String} {i : ι} {s : Subscriber} : b.handles.lookup handle = some (i, s) →
      Effect rules perform b (.unsubscribe handle) (b.remove i s)
  | unknown {handle : String} : b.handles.lookup handle = none → Effect rules perform b (.unsubscribe handle) b
  | publish (i : ι) (v : α) (guard : Option α) :
      Effect rules perform b (.publish i v guard) ((publishBy rules perform i v).run b).2
  | set (i : ι) (v : α) : Effect rules perform b (.set i v) ((publishBy rules perform i v).run (b.setValue i v)).2
  | openStream (i : ι) (name : String) : Effect rules perform b (.openStream i name) (b.openStream i name)
  | take (name : String) (id : Nat) (rest : List α) :
      Effect rules perform b (.take name) (b.mapStream id fun s => { s with queue := rest })
  | closeStream {name : String} {id : Nat} {s : Stream ι α} : b.streams[id]? = some s →
      Effect rules perform b (.closeStream name) (b.remove s.channel (.stream id))
  | nothing {a : Action ι α} : a.idles = true → Effect rules perform b a b

theorem performBy_effect (rules : Rules ι α) (perform : Performer ι α) (received : Option α) (a : Action ι α)
    (b : Board ι α) : Effect rules perform b a ((performBy rules perform received a).run.run b).2 := by
  cases a with
  | subscribe i name handle => exact .subscribe i name handle
  | unsubscribe handle =>
    rw [performBy_unsubscribe]
    cases hl : b.handles.lookup handle with
    | none => exact .unknown hl
    | some p => exact .unsubscribe hl
  | publish i v guard =>
    cases received with
    | none => exact .publish i v guard
    | some r =>
      cases guard with
      | none => exact .publish i v none
      | some w =>
        show Effect rules perform b (.publish i v (some w)) ((if rules.same r w then pure none
          else do
            publishBy rules perform i v
            pure none : Doing ι α (Option α)).run.run b).2
        split
        · exact .nothing rfl
        · exact .publish i v (some w)
  | set i v =>
    rw [performBy_set]
    cases b.value? i with
    | none => exact .nothing rfl
    | some held =>
      dsimp only
      split
      · exact .nothing rfl
      · exact .set i v
  | openStream i name => exact .openStream i name
  | take name =>
    rw [performBy_take]
    split
    · exact .nothing rfl
    · split
      · exact .nothing rfl
      · exact .take name _ _
  | closeStream name =>
    rw [performBy_closeStream]
    split
    · exact .nothing rfl
    · rename_i id s hfound
      obtain ⟨id', -, hs⟩ := Option.bind_eq_some_iff.mp hfound
      obtain ⟨s', hs', hpair⟩ := Option.map_eq_some_iff.mp hs
      obtain ⟨rfl, rfl⟩ := Prod.mk.inj hpair
      exact .closeStream hs'
  | fail => exact .nothing rfl
  | failAt which =>
    rw [performBy_failAt]
    split
    · exact .nothing rfl
    · exact .nothing rfl

section

variable {rules : Rules ι α} {perform : Performer ι α} {b : Board ι α}

/-- The performer makes calls of its actions and of callbacks, and only what publishes delivers. -/
def Accounts (rules : Rules ι α) (perform : Performer ι α) : Prop :=
  ∀ received a b, ∃ ks ds, Moves ks ds b ((perform received a).run.run b).2 ∧
    (∀ k ∈ ks, a.makes k ∨ rules.Makes k) ∧ (a.passive = true → ds = [])

theorem runProgram_moves (hp : Accounts rules perform) (v : α) {as : List (Action ι α)}
    (ha : ∀ a ∈ as, ∃ name, a ∈ rules.program name) (b : Board ι α) :
    ∃ ks ds, Moves ks ds b ((runProgram perform v as).run.run b).2 ∧ (∀ k ∈ ks, rules.Makes k) ∧
      (rules.Passive → ds = []) := by
  induction as generalizing b with
  | nil => exact ⟨[], [], .refl b, nofun, fun _ => rfl⟩
  | cons a as ih =>
    obtain ⟨name, hname⟩ := ha a List.mem_cons_self
    obtain ⟨ks, ds, hfirst, hmakes, hdelivers⟩ := hp (some v) a b
    have hown : ∀ k ∈ ks, rules.Makes k := fun k hk => (hmakes k hk).elim (fun h => ⟨name, a, hname, h⟩) id
    obtain ⟨ks', ds', hrest, hmakes', hdelivers'⟩ :=
      ih (fun a' ha' => ha a' (List.mem_cons_of_mem a ha')) ((perform (some v) a).run.run b).2
    rw [runProgram, doing_bind]
    cases ((perform (some v) a).run.run b).1 with
    | error m => exact ⟨ks, ds, hfirst, hown, fun hq => hdelivers (hq name a hname)⟩
    | ok o =>
      refine ⟨ks ++ ks', ds ++ ds', hfirst.trans hrest, fun k hk => ?_, fun hq => ?_⟩
      · exact (List.mem_append.mp hk).elim (hown k) (hmakes' k)
      · rw [hdelivers (hq name a hname), hdelivers' hq]
        rfl

/-- A value is delivered to a callback, and then what it publishes itself; a stream queues it. -/
def Delivers (rules : Rules ι α) (i : ι) (v : α) (s : Subscriber) (ds : List (Delivery ι α)) : Prop :=
  match s with
  | .callback name => ∃ others, ds = ⟨name, i, v⟩ :: others ∧ (rules.Passive → others = [])
  | .stream _ => ds = []

theorem handTo_moves (hp : Accounts rules perform) (i : ι) (v : α) (s : Subscriber) (b : Board ι α) :
    ∃ ks ds, Moves ks ds b ((handTo rules perform i v s).run b).2 ∧ (∀ k ∈ ks, rules.Makes k) ∧
      Delivers rules i v s ds := by
  cases s with
  | stream id =>
    exact ⟨[], [], mapStream_moves b id (fun _ => rfl), nofun, rfl⟩
  | callback name =>
    obtain ⟨ks, ds, hprogram, hmakes, hdelivers⟩ :=
      runProgram_moves hp v (fun a ha => ⟨name, ha⟩) (b.deliver name i v)
    have hall := (deliver_moves b name i v).trans hprogram
    rw [handTo_callback]
    refine ⟨ks, ⟨name, i, v⟩ :: ds, ?_, hmakes, ds, rfl, hdelivers⟩
    cases ((runProgram perform v (rules.program name)).run.run (b.deliver name i v)).1 with
    | ok u => exact hall
    | error m =>
      have hfailed := hall.trans (noteFailure_moves _ i)
      rw [List.append_nil, List.append_nil] at hfailed
      exact hfailed

theorem handToAll_moves (hp : Accounts rules perform) (i : ι) (v : α) (ss : List Subscriber) (b : Board ι α) :
    ∃ ks dss, Moves ks dss.flatten b ((handToAll rules perform i v ss).run b).2 ∧ (∀ k ∈ ks, rules.Makes k) ∧
      List.Forall₂ (Delivers rules i v) ss dss := by
  induction ss generalizing b with
  | nil => exact ⟨[], [], .refl b, nofun, .nil⟩
  | cons s ss ih =>
    obtain ⟨ks, ds, hfirst, hmakes, hdelivers⟩ := handTo_moves hp i v s b
    obtain ⟨ks', dss, hrest, hmakes', hall⟩ := ih ((handTo rules perform i v s).run b).2
    refine ⟨ks ++ ks', ds :: dss, hfirst.trans hrest, fun k hk => ?_, .cons hdelivers hall⟩
    exact (List.mem_append.mp hk).elim (hmakes k) (hmakes' k)

theorem publishBy_moves (hp : Accounts rules perform) (i : ι) (v : α) (b : Board ι α) :
    ∃ ks dss, Moves ks dss.flatten b ((publishBy rules perform i v).run b).2 ∧ (∀ k ∈ ks, rules.Makes k) ∧
      List.Forall₂ (Delivers rules i v) (b.subscribers i) dss :=
  handToAll_moves hp i v (b.subscribers i) b

theorem performBy_moves (hp : Accounts rules perform) (received : Option α) (a : Action ι α) (b : Board ι α) :
    ∃ ks ds, Moves ks ds b ((performBy rules perform received a).run.run b).2 ∧ rules.Causes a ks ∧
      (a.passive = true → ds = []) := by
  have heffect := performBy_effect rules perform received a b
  generalize ((performBy rules perform received a).run.run b).2 = c at heffect
  cases heffect with
  | subscribe i name handle => exact ⟨_, [], subscribe_moves b i name handle, ⟨_, rfl, rfl⟩, fun _ => rfl⟩
  | @unsubscribe handle i s hl =>
    have hp : ∀ l : Ledger ι, Keeps l b → standsFor l.made (.handle handle) = some (i, s) :=
      fun l hk => (hk.handles handle).symm.trans hl
    exact ⟨_, [], remove_moves hp, ⟨_, rfl, rfl⟩, fun _ => rfl⟩
  | unknown hl => exact ⟨_, [], unknown_moves hl, ⟨_, rfl, rfl⟩, fun _ => rfl⟩
  | publish i v guard =>
    obtain ⟨ks, dss, hmoves, hmakes, -⟩ := publishBy_moves hp i v b
    exact ⟨ks, dss.flatten, hmoves, hmakes, nofun⟩
  | set i v =>
    obtain ⟨ks, dss, hmoves, hmakes, -⟩ := publishBy_moves hp i v (b.setValue i v)
    exact ⟨ks, dss.flatten, (setValue_moves b i v).trans hmoves, hmakes, nofun⟩
  | openStream i name => exact ⟨_, [], openStream_moves b i name, ⟨_, rfl, _, rfl⟩, fun _ => rfl⟩
  | take name id rest =>
    exact ⟨[], [], mapStream_moves b id (fun _ => rfl), rfl, fun _ => rfl⟩
  | @closeStream name id s hs =>
    have hp : ∀ l : Ledger ι, Keeps l b → standsFor l.made (.stream id) = some (s.channel, .stream id) := by
      intro l hk
      rw [← hk.streams id, hs]
      rfl
    exact ⟨_, [], remove_moves hp, .inr ⟨_, rfl, _, rfl⟩, fun _ => rfl⟩
  | nothing ha =>
    refine ⟨[], [], .refl b, ?_, fun _ => rfl⟩
    cases a with
    | subscribe | unsubscribe | openStream => cases ha
    | closeStream => exact .inl rfl
    | publish | set => exact nofun
    | take | fail | failAt => rfl

omit [DecidableEq ι] in
theorem Rules.Causes.made {a : Action ι α} {ks : List (Call ι)} (h : rules.Causes a ks) :
    ∀ k ∈ ks, a.makes k ∨ rules.Makes k := by
  have hone : (∃ k, ks = [k] ∧ a.makes k) → ∀ k ∈ ks, a.makes k ∨ rules.Makes k := by
    rintro ⟨k, rfl, hk⟩ k' hk'
    rw [List.mem_singleton.mp hk']
    exact .inl hk
  cases a with
  | subscribe | unsubscribe | openStream => exact hone h
  | closeStream =>
    rcases h with rfl | h
    · exact nofun
    · exact hone h
  | publish | set => exact fun k hk => .inr (h k hk)
  | take | fail | failAt =>
    rw [show ks = [] from h]
    exact nofun

theorem performWithin_accounts (rules : Rules ι α) (depth : Nat) : Accounts rules (performWithin rules depth) := by
  induction depth with
  | zero => exact fun _ _ b => ⟨[], [], .refl b, nofun, fun _ => rfl⟩
  | succ depth ih =>
    intro received a b
    obtain ⟨ks, ds, hmoves, hcauses, hdelivers⟩ := performBy_moves ih received a b
    exact ⟨ks, ds, hmoves, hcauses.made, hdelivers⟩

end

/-! ## From outside -/

/-- The board after some actions from outside, of which each may fail. -/
def Board.after (rules : Rules ι α) (b : Board ι α) (as : List (Action ι α)) : Board ι α :=
  as.foldl (fun b a => ((perform rules a).run.run b).2) b

theorem after_moves (rules : Rules ι α) (b : Board ι α) (as : List (Action ι α)) :
    ∃ kss ds, List.Forall₂ rules.Causes as kss ∧ Moves kss.flatten ds b (b.after rules as) := by
  induction as generalizing b with
  | nil => exact ⟨[], [], .nil, .refl b⟩
  | cons a as ih =>
    obtain ⟨ks, ds, hfirst, hcauses, -⟩ := performBy_moves (performWithin_accounts rules nestingLimit) none a b
    obtain ⟨kss, ds', hall, hrest⟩ := ih ((perform rules a).run.run b).2
    exact ⟨ks :: kss, ds ++ ds', .cons hcauses hall, hfirst.trans hrest⟩

/-- What actions from outside make of a board, by the calls that each of them has caused. -/
structure Balances (rules : Rules ι α) (as : List (Action ι α)) (b : Board ι α) (kss : List (List (Call ι))) : Prop where
  caused : List.Forall₂ rules.Causes as kss
  left : b.subscriptions = (Ledger.empty.after kss.flatten).left
  /-- Nobody is subscribed who is not due. -/
  within : b.subscriptions.Subperm (Ledger.empty.after kss.flatten).due
  /-- All are subscribed that are due, unless something is given back twice. -/
  whole : Ledger.empty.Once kss.flatten → b.subscriptions.Perm (Ledger.empty.after kss.flatten).due
  /-- The subscriptions have been what is due, in its order, exactly if no call takes away another one than its own. -/
  ordered : Ledger.empty.Harmless kss.flatten ↔
    ∀ ks, ks <+: kss.flatten → (Ledger.empty.after ks).left = (Ledger.empty.after ks).due
  /-- A value goes to each of the subscribers of the moment, in order. -/
  delivered : ∀ i v, ∃ dss, List.Forall₂ (Delivers rules i v) (b.subscribers i) dss ∧
    ((publish rules i v).run b).2.deliveries = b.deliveries ++ dss.flatten

/-- A subscription that is given back takes the first one of its subscriber away. -/
theorem unsubscribing_takes_the_first (rules : Rules ι α) (signals : List (ι × α)) (as : List (Action ι α)) :
    ∃ kss, Balances rules as ((Board.empty signals).after rules as) kss := by
  obtain ⟨kss, ds, hcauses, hmoves⟩ := after_moves rules (Board.empty signals) as
  have hleft := (hmoves.keeps Ledger.empty (empty_keeps signals)).left
  refine ⟨kss, hcauses, hleft, ?_, fun honce => ?_, harmless_iff rfl _, fun i v => ?_⟩
  · rw [hleft]
    exact after_within (.refl _) _
  · rw [hleft]
    exact after_perm (.refl _) honce
  · obtain ⟨ks, dss, hpublished, -, hdelivers⟩ :=
      publishBy_moves (performWithin_accounts rules nestingLimit) i v ((Board.empty signals).after rules as)
    exact ⟨dss, hdelivers, hpublished.deliveries⟩

/-- Of three subscriptions the third is given back, with the same callback as the first; then
    it is given back once more. First the others are left in the wrong order, then one of them
    is gone as well. -/
theorem unsubscribing_takes_anothers :
    let rules : Rules Unit Nat := ⟨fun _ => [], fun v w => v == w⟩
    let a : Unit × Subscriber := ((), .callback "a")
    let b : Unit × Subscriber := ((), .callback "b")
    let subscribes : List (Action Unit Nat) :=
      [.subscribe () "a" "1", .subscribe () "b" "2", .subscribe () "a" "3", .unsubscribe "3"]
    let calls : List (Call Unit) :=
      [.subscribe a (.handle "1"), .subscribe b (.handle "2"), .subscribe a (.handle "3"), .unsubscribe (.handle "3")]
    let first := (Board.empty []).after rules subscribes
    let again := (Board.empty []).after rules (subscribes ++ [.unsubscribe "3"])
    (Ledger.empty.after calls).due = [a, b] ∧ first.subscriptions = [b, a] ∧
      (Ledger.empty.after (calls ++ [.unsubscribe (.handle "3")])).due = [a, b] ∧ again.subscriptions = [b] ∧
      (((publish rules () 1).run first).2.deliveries.map (·.callback)) = ["b", "a"] ∧
      (((publish rules () 1).run again).2.deliveries.map (·.callback)) = ["b"] := by
  decide

end StepFlow.Channel
