/-
  StepFlow.Proofs.Run.Observers — observers cannot disturb a run.

  A run does not look at its board, so it does the same without its subscribers, whatever their
  callbacks do. What it keeps it also publishes, in the same order; a subscriber that stays
  receives each of these entries once, whatever becomes of the others.
  - Callbacks subscribe, unsubscribe and fail; they publish nothing of their own.

  Proved, for every flow, every surroundings and every turn:
  (1) `shown_received`: a subscriber that stays on `logs` receives the entries among the
      signals that are published.
  (2) `observers_cannot_disturb`: so the run that is observed is the one that is not, and who
      stays hears all of it.
-/

import StepFlow.Proofs.Channel.Receiving
import StepFlow.Proofs.Run.Lockstep

namespace StepFlow.Run

open Channel (Board Subscriber Stays Passes)

/-- The executor without any subscriber. -/
def Executor.unobserved (x : Executor) : Executor := { x with board := { x.board with subscriptions := [] } }

/-! ## What is received -/

section

variable {rules : Channel.Rules Line Signal} {o : Subscriber} {b : Board Line Signal}

/-- A subscriber receives the entry as often as it is subscribed to `logs`. -/
theorem showEntry_passes (hq : rules.Passive) (e : Entry) (hb : b.Knows o) :
    Passes .logs o b (List.replicate (b.subscriptions.count (.logs, o)) (.entry e)) (showOn rules b (.entry e)) := by
  have hpasses : Passes .logs o b _ _ := Channel.publish_passes hq .logs (.entry e) hb
  have hears : o.hears Line.logs .logs = true := by cases o <;> rfl
  rw [if_pos hears] at hpasses
  exact hpasses

/-- What is active is not told on `logs`. -/
theorem showNode_passes (hq : rules.Passive) (id : Option String) (hb : b.Knows o)
    (ho : ∀ n, o = .stream n → ∀ j, j ≠ .logs → b.subscriptions.count (j, o) = 0) :
    Passes .logs o b [] (showOn rules b (.node id)) := by
  refine Channel.set_passes hq (fun hears => ?_) (.node id) hb
  cases o with
  | callback name => cases hears
  | stream n => exact ho n rfl .active (by decide)

/-- Something is received while signals are published. -/
theorem shown_passes (hq : rules.Passive) (ss : List Signal) (hb : b.Knows o)
    (ho : ∀ n, o = .stream n → ∀ j, j ≠ .logs → b.subscriptions.count (j, o) = 0) :
    ∃ vs, Passes .logs o b vs (ss.foldl (showOn rules) b) := by
  induction ss generalizing b with
  | nil => exact ⟨[], .refl .logs o b⟩
  | cons signal ss ih =>
    obtain ⟨us, hfirst⟩ : ∃ us, Passes .logs o b us (showOn rules b signal) := by
      cases signal with
      | entry e => exact ⟨_, showEntry_passes hq e hb⟩
      | node id => exact ⟨_, showNode_passes hq id hb ho⟩
    obtain ⟨vs, hrest⟩ := ih (hfirst.knows hb) (hfirst.elsewhere ho)
    exact ⟨us ++ vs, hfirst.trans hrest⟩

/-- What a subscriber that stays receives while signals are published: the entries among them. -/
theorem shown_received (hq : rules.Passive) (ss : List Signal) (h : Stays .logs o b (ss.foldl (showOn rules) b)) :
    Passes .logs o b ((entriesOf ss).map .entry) (ss.foldl (showOn rules) b) := by
  induction ss generalizing b with
  | nil => exact .refl .logs o b
  | cons signal ss ih =>
    have hend : ∀ {us}, Passes .logs o b us (showOn rules b signal) →
        Passes .logs o (showOn rules b signal) ((entriesOf ss).map .entry) ((signal :: ss).foldl (showOn rules) b) := by
      intro us hfirst
      obtain ⟨vs, hrest⟩ := shown_passes hq ss (hfirst.knows h.opened) (hfirst.elsewhere h.elsewhere)
      exact ih (h.rest hfirst hrest)
    cases signal with
    | entry e =>
      have hfirst := showEntry_passes hq e h.opened
      rw [h.once] at hfirst
      exact hfirst.trans (hend hfirst)
    | node id =>
      have hfirst := showNode_passes hq id h.opened h.elsewhere
      exact hfirst.trans (hend hfirst)

end

/-! ## Runs -/

/-- What a run and its observers are to each other. -/
structure Undisturbed (q : Request) (x : Executor) (s : Surroundings) : Prop where
  /-- Without its observers the run is the same. -/
  same : ∀ k, SameRun q q x x.unobserved s k
  /-- An observer of `logs` that stays receives what the run keeps, in order and once. -/
  received : ∀ k o, Stays .logs o x.board (q.course x s k).2.board →
    (q.course x s k).2.board.received .logs o = x.board.received .logs o ++ (q.course x s k).1.2.entries.map .entry
  /-- So it has received the entries of the result, when there is one. -/
  result : ∀ k o r, Stays .logs o x.board (q.course x s k).2.board → (q.course x s k).1.1 = .ended (.finished r) →
    (q.course x s k).2.board.received .logs o = x.board.received .logs o ++ r.entries.map .entry

/-- Observers that come, go and fail neither change a run nor what the others hear of it. -/
theorem observers_cannot_disturb {x : Executor} (hq : x.rules.Passive) (q : Request) (s : Surroundings) :
    Undisturbed q x s := by
  have hreceived : ∀ k o, Stays .logs o x.board (q.course x s k).2.board → (q.course x s k).2.board.received .logs o =
      x.board.received .logs o ++ (q.course x s k).1.2.entries.map .entry := by
    intro k o ho
    obtain ⟨ss, hss, he⟩ := course_shows q x s k
    rw [hss.board] at ho ⊢
    rw [he]
    exact (shown_received hq ss ho).received
  refine ⟨fun k => ?_, hreceived, fun k o r ho hr => ?_⟩
  · have hpeers : Peers x x.unobserved := ⟨rfl, rfl, rfl⟩
    exact same_of_abreast companions_peers fun j _ =>
      course_abreast companions_peers (.refl q.flow) hpeers fun _ _ _ _ => rfl
  · rw [course_result hr]
    exact hreceived k o ho

/-- Two callbacks fail at every delivery, one of them after it has subscribed another one; a
    third one and a stream stay and hear all of the run. -/
theorem failing_observers_disturb_nobody :
    let start : Node := ⟨"s", .start, .origin, ⟨"Start", none, none, none, none⟩⟩
    let last : Node := ⟨"e", .finish, .origin, ⟨"End", none, none, none, none⟩⟩
    let q : Request := ⟨.none, "t", ⟨"f", "Two", none, [start, last], [⟨"c", "s", "e", none⟩]⟩, []⟩
    let empty : Executor := .create ⟨.scalar (.int 0), .scalar (.int 10)⟩ ⟨0, []⟩ .empty
    let board := (empty.board.subscribe .logs (.callback "broken")).subscribe .active (.callback "broken")
    let watched := (board.subscribe .logs (.callback "fickle")).openStream .logs "tail"
    let x : Executor :=
      { empty with
        board := watched.subscribe .logs (.callback "recorder")
        program := fun name =>
          if name = "broken" then [.fail]
          else if name = "fickle" then [.subscribe .logs "newcomer" "n", .fail]
          else [] }
    let s : Surroundings := ⟨fun _ => .failure (.crash ⟨"ValueError", ""⟩), fun _ => .ok ()⟩
    let recorder : Subscriber := .callback "recorder"
    let tail : Subscriber := .stream 0
    Undisturbed q x s ∧ Stays .logs recorder x.board (q.course x s 2).2.board ∧
      Stays .logs tail x.board (q.course x s 2).2.board ∧
        ∃ r, (q.course x s 2).1.1 = .ended (.finished r) ∧ r.entries.length = 4 ∧
          (q.course x s 2).2.board.received .logs recorder = r.entries.map .entry ∧
          (q.course x s 2).2.board.received .logs tail = r.entries.map .entry := by
  intro start last q empty board watched x s recorder tail
  have hq : x.rules.Passive := by
    intro name a ha
    have hprogram : x.rules.program name =
        if name = "broken" then [.fail]
        else if name = "fickle" then [.subscribe .logs "newcomer" "n", .fail]
        else [] := rfl
    rw [hprogram] at ha
    split at ha
    · rw [List.mem_singleton.mp ha]
      rfl
    · split at ha
      · rcases List.mem_cons.mp ha with rfl | ha
        · rfl
        · rw [List.mem_singleton.mp ha]
          rfl
      · cases ha
  have hundisturbed := observers_cannot_disturb hq q s
  have hrecorder : Stays .logs recorder x.board (q.course x s 2).2.board :=
    ⟨rfl, by decide +kernel, by decide +kernel, nofun, nofun⟩
  have htail : Stays .logs tail x.board (q.course x s 2).2.board := by
    refine ⟨rfl, by decide +kernel, by decide +kernel, fun id hid => ?_, fun id hid j hj => ?_⟩
    · rw [← Subscriber.stream.inj hid]
      exact Nat.one_pos
    · cases j with
      | logs => exact absurd rfl hj
      | active => rfl
  exact ⟨hundisturbed, hrecorder, htail, _, rfl, rfl, hundisturbed.result 2 recorder _ hrecorder rfl,
    hundisturbed.result 2 tail _ htail rfl⟩

end StepFlow.Run
