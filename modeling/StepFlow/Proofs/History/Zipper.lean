/-
  StepFlow.Proofs.History.Zipper — a history is a zipper of immutable values, whatever its
  caller does to the objects that went in or came out.

  The zipper (`Zipper`) has the values before the present one, the nearest first, and those
  after it; an empty history has none. It answers the same calls.

  A caller owns a part of the store (`World.mine`): all there is at first, all it makes, and all
  that what it receives reaches. Between two calls it may change its own cells, and no others,
  as it likes (`Step.change`); to a call it may hand what it owns (`Step.call`).

  Proved: a run of calls and changes gives the reports that the zipper gives for the values
  handed in (`run_refines`). The snapshots stay in a closed part of the store that has no cell
  in common with the caller's (`Apart`): what goes in or comes out is copied to new cells.
  `history_is_a_zipper` says so of values on the heap and of flows.
-/

import Mathlib
import StepFlow.Proofs.History.Territory

namespace StepFlow.History

variable {S σ τ C α : Type} {storage : Storage S σ}

/-! ## Calls -/

inductive Call (σ : Type) where
  | init (v : σ)
  | push (v : σ)
  | undo
  | redo
  | current
  | clear

namespace Call

/-- The state handed to a call. -/
def state? : Call σ → Option σ
  | .init v | .push v => some v
  | _ => none

def map (f : σ → τ) : Call σ → Call τ
  | .init v => .init (f v)
  | .push v => .push (f v)
  | .undo => .undo
  | .redo => .redo
  | .current => .current
  | .clear => .clear

end Call

/-- What a call gives, and what can be read of the history after it. -/
structure Report (α : Type) where
  result : Except Trouble (Option α)
  length : Nat
  cursor : Int
  canUndo : Bool
  canRedo : Bool

def call (storage : Storage S σ) (h : History σ) : Call σ → StateM S (Except Trouble (Option σ) × History σ)
  | .init v => (fun h' => (.ok none, h')) <$> init storage v
  | .push v => (fun
    | .ok h' => (.ok none, h')
    | .error e => (.error e, h)) <$> h.push storage v
  | .undo => (fun r => (.ok r.1, r.2)) <$> h.undo storage
  | .redo => (fun r => (.ok r.1, r.2)) <$> h.redo storage
  | .current => (fun r => (.ok r, h)) <$> h.current storage
  | .clear => pure (.ok none, h.clear)

def report (h : History σ) (r : Except Trouble (Option α)) : Report α :=
  ⟨r, h.length, h.cursor, h.canUndo, h.canRedo⟩

/-! ## The zipper -/

structure Zipper (α : Type) where
  before : List α
  present : α
  after : List α

/-- A zipper, or nothing. -/
abbrev Line (α : Type) := Option (Zipper α)

/-- A value equal to the present one changes nothing. Any other one comes after it, in place of
    those that did. -/
def Zipper.push (z : Zipper α) (x : α) : Except Trouble Bool → Except Trouble (Option α) × Line α
  | .error e => (.error e, some z)
  | .ok true => (.ok none, some z)
  | .ok false => (.ok none, some ⟨z.present :: z.before, x, []⟩)

namespace Line

def length : Line α → Nat
  | none => 0
  | some z => z.before.length + 1 + z.after.length

def cursor : Line α → Int
  | none => -1
  | some z => z.before.length

def canUndo : Line α → Bool
  | none => false
  | some z => !z.before.isEmpty

def canRedo : Line α → Bool
  | none => false
  | some z => !z.after.isEmpty

def report (l : Line σ) (r : Except Trouble (Option α)) : Report α := ⟨r, l.length, l.cursor, l.canUndo, l.canRedo⟩

def pushed (l : Line α) (x : α) : Line α :=
  match l with
  | none => some ⟨[], x, []⟩
  | some z => some ⟨z.present :: z.before, x, []⟩

def call (equal : α → α → Except Trouble Bool) : Line α → Call α → Except Trouble (Option α) × Line α
  | _, .init x => (.ok none, some ⟨[], x, []⟩)
  | none, .push x => (.ok none, some ⟨[], x, []⟩)
  | some z, .push x => z.push x (equal z.present x)
  | some ⟨p :: ps, x, fs⟩, .undo => (.ok (some p), some ⟨ps, p, x :: fs⟩)
  | some ⟨ps, x, f :: fs⟩, .redo => (.ok (some f), some ⟨x :: ps, f, fs⟩)
  | l, .undo | l, .redo => (.ok none, l)
  | l, .current => (.ok (l.map (·.present)), l)
  | _, .clear => (.ok none, none)

/-- The reports of calls in turn. -/
def reports (equal : α → α → Except Trouble Bool) (l : Line α) : List (Call α) → List (Report α)
  | [] => []
  | c :: cs =>
    let (r, l') := l.call equal c
    l'.report r :: reports equal l' cs

end Line

/-! ## Zippers of snapshots -/

def Zipper.map (f : σ → τ) (z : Zipper σ) : Zipper τ := ⟨z.before.map f, f z.present, z.after.map f⟩

theorem Zipper.push_map (f : σ → τ) (z : Zipper σ) (c : σ) (o : Except Trouble Bool) :
    (z.map f).push (f c) o = ((z.push c o).1.map (Option.map f), (z.push c o).2.map (Zipper.map f)) := by
  match o with
  | .error _ => rfl
  | .ok true => rfl
  | .ok false => rfl

namespace Line

/-- A zipper as a line of snapshots with a cursor. -/
def history : Line σ → History σ
  | none => .empty
  | some z => ⟨z.before.reverse ++ z.present :: z.after, z.before.length⟩

variable (l : Line σ)

theorem history_length : l.history.length = l.length := by
  cases l with
  | none => rfl
  | some z =>
    simp only [history, History.length, length, List.length_append, List.length_reverse, List.length_cons]
    omega

theorem history_cursor : l.history.cursor = l.cursor := by cases l <;> rfl

theorem history_canUndo : l.history.canUndo = l.canUndo := by
  cases l with
  | none => rfl
  | some z =>
    obtain ⟨ps, x, fs⟩ := z
    cases ps with
    | nil => rfl
    | cons p ps =>
      have hpos : (0 : Int) < ((p :: ps).length : Nat) := by
        rw [List.length_cons]
        omega
      exact decide_eq_true hpos

theorem history_canRedo : l.history.canRedo = l.canRedo := by
  cases l with
  | none => rfl
  | some z =>
    obtain ⟨ps, x, fs⟩ := z
    unfold History.canRedo
    rw [history_length]
    cases fs with
    | nil =>
      have hlast : ¬ (ps.length : Int) < (ps.length + 1 + 0 : Nat) - 1 := by omega
      exact decide_eq_false hlast
    | cons f fs =>
      have hmore : (ps.length : Int) < (ps.length + 1 + (f :: fs).length : Nat) - 1 := by
        rw [List.length_cons]
        omega
      exact decide_eq_true hmore

theorem history_report (r : Except Trouble (Option α)) : l.history.report r = l.report r := by
  unfold History.report report
  rw [history_length, history_cursor, history_canUndo, history_canRedo]

theorem history_present? : l.history.present? = Option.map (·.present) l := by
  cases l with
  | none => rfl
  | some z =>
    have hcursor : ¬ (z.before.length : Int) < 0 := by omega
    unfold History.present? history
    rw [if_neg hcursor, Int.toNat_natCast]
    rw [List.getElem?_append_right (by simp)]
    simp

theorem history_append (c : σ) : l.history.append c = (l.pushed c).history := by
  cases l with
  | none => rfl
  | some z =>
    have htake : (z.before.reverse ++ z.present :: z.after).take (z.before.length + 1) =
        z.before.reverse ++ [z.present] := by
      rw [List.take_append]
      simp
    have hcursor : ((z.before.length : Int) + 1).toNat = z.before.length + 1 := by omega
    simp only [History.append, history, pushed, hcursor, htake]
    simp

end Line

/-! ## Parts of the store -/

/-- The caller's cells and those of the snapshots are closed, and no cell is both. -/
structure Apart (g : Ground storage C α) (s : S) (mine kept : Nat → Prop) : Prop where
  mineClosed : g.Closed s mine
  keptClosed : g.Closed s kept
  apart : ∀ q, mine q → ¬ kept q

/-- The snapshots point at cells of `kept`. -/
structure Zipper.Held (g : Ground storage C α) (kept : Nat → Prop) (z : Zipper σ) : Prop where
  before : ∀ v ∈ z.before, g.Rooted kept v
  present : g.Rooted kept z.present
  after : ∀ v ∈ z.after, g.Rooted kept v

def Line.Held (g : Ground storage C α) (kept : Nat → Prop) (l : Line σ) : Prop := ∀ z ∈ l, z.Held g kept

/-- What a call has given. -/
def received : Except Trouble (Option σ) → Option σ
  | .ok r => r
  | .error _ => none

theorem Zipper.push_gives_none (z : Zipper σ) (c : σ) (o : Except Trouble Bool) : received (z.push c o).1 = none := by
  match o with
  | .error _ => rfl
  | .ok true => rfl
  | .ok false => rfl

/-- The caller's cells, and those that what it receives reaches. -/
def owned (g : Ground storage C α) (s : S) (mine : Nat → Prop) (r : Except Trouble (Option σ)) (q : Nat) : Prop :=
  mine q ∨ ∃ v ∈ received r, g.Reached s v q

theorem owned_none {g : Ground storage C α} {s : S} {mine : Nat → Prop} {r : Except Trouble (Option σ)}
    (h : received r = none) : owned g s mine r = mine := by
  funext q
  simp [owned, h]

theorem owned_some (g : Ground storage C α) (s : S) (mine : Nat → Prop) (v : σ) :
    owned g s mine (.ok (some v)) = fun q => mine q ∨ g.Reached s v q := by
  funext q
  simp [owned, received]

namespace Apart

variable {g : Ground storage C α} {s s' : S} {mine kept : Nat → Prop} {v : σ}

/-- What goes in is copied to new cells, and these are the snapshots'. -/
theorem put (h : Apart g s mine kept) (hv : g.Rooted mine v) :
    Apart g (storage.copy v s).2 mine fun q => kept q ∨ g.Fresh s (storage.copy v s).2 q where
  mineClosed := h.mineClosed.grown (g.copy_grows s v)
  keptClosed := (h.keptClosed.grown (g.copy_grows s v)).or (g.copy_closed h.mineClosed hv)
  apart := by
    rintro q hq (hk | hf)
    · exact h.apart q hq hk
    · exact h.mineClosed.not_fresh hq hf

/-- What comes out is copied to new cells, and those that it reaches are the caller's. -/
theorem take (h : Apart g s mine kept) (hv : g.Rooted kept v) :
    Apart g (storage.copy v s).2 (owned g (storage.copy v s).2 mine (.ok (some (storage.copy v s).1))) kept := by
  have hclosed := g.copy_closed h.keptClosed hv
  have hrooted := g.copy_rooted h.keptClosed hv
  rw [owned_some]
  refine ⟨(h.mineClosed.grown (g.copy_grows s v)).or (Layout.reached_closed hclosed hrooted),
    h.keptClosed.grown (g.copy_grows s v), ?_⟩
  rintro q (hm | hr) hk
  · exact h.apart q hm hk
  · exact h.keptClosed.not_fresh hk (hr.within hclosed hrooted)

/-- What the caller does to its own cells, and what it makes, is not the snapshots'. -/
theorem change (h : Apart g s mine kept) (hsize : g.size s ≤ g.size s')
    (hothers : ∀ q < g.size s, ¬ mine q → g.cell s' q = g.cell s q)
    (hmine : g.Closed s' fun q => mine q ∨ g.Fresh s s' q) :
    Apart g s' (fun q => mine q ∨ g.Fresh s s' q) kept where
  mineClosed := hmine
  keptClosed := by
    intro q hq
    obtain ⟨hlt, hr⟩ := h.keptClosed q hq
    rw [hothers q hlt fun hm => h.apart q hm hq]
    exact ⟨Nat.lt_of_lt_of_le hlt hsize, hr⟩
  apart := by
    rintro q (hm | hf) hk
    · exact h.apart q hm hk
    · exact h.keptClosed.not_fresh hk hf

end Apart

/-! ## A step -/

/-- The snapshots' images. -/
def Line.image (g : Ground storage C α) (s : S) (l : Line σ) : Line α := l.map (Zipper.map (g.image s))

namespace Line

variable {g : Ground storage C α} {s s' : S} {kept : Nat → Prop} {l : Line σ}

theorem image_report (r : Except Trouble (Option α)) : (l.image g s).report r = l.report r := by
  cases l with
  | none => rfl
  | some z =>
    simp [image, report, length, cursor, canUndo, canRedo, Zipper.map]

theorem Held.mono (h : l.Held g kept) {kept' : Nat → Prop} (hk : ∀ q, kept q → kept' q) : l.Held g kept' :=
  fun z hz => ⟨fun v hv q hq => hk q ((h z hz).before v hv q hq), fun q hq => hk q ((h z hz).present q hq),
    fun v hv q hq => hk q ((h z hz).after v hv q hq)⟩

theorem held_single {c : σ} (hc : g.Rooted kept c) : Held g kept (some ⟨[], c, []⟩) := by
  rintro z ⟨⟩
  exact ⟨List.forall_mem_nil _, hc, List.forall_mem_nil _⟩

theorem Held.pushed (h : l.Held g kept) {c : σ} (hc : g.Rooted kept c) : (l.pushed c).Held g kept := by
  cases l with
  | none => exact held_single hc
  | some z =>
    have hz := h z rfl
    rintro z' ⟨⟩
    exact ⟨List.forall_mem_cons.mpr ⟨hz.present, hz.before⟩, hc, List.forall_mem_nil _⟩

theorem Held.push {z : Zipper σ} (h : Held g kept (some z)) {c : σ} (hc : g.Rooted kept c)
    (o : Except Trouble Bool) : Held g kept (z.push c o).2 := by
  match o with
  | .error _ => exact h
  | .ok true => exact h
  | .ok false => exact h.pushed hc

theorem Held.back {p x : σ} {ps fs : List σ} (h : Held g kept (some ⟨p :: ps, x, fs⟩)) :
    Held g kept (some ⟨ps, p, x :: fs⟩) := by
  obtain ⟨hb, hp, hf⟩ := h _ rfl
  rintro z ⟨⟩
  exact ⟨(List.forall_mem_cons.mp hb).2, (List.forall_mem_cons.mp hb).1, List.forall_mem_cons.mpr ⟨hp, hf⟩⟩

theorem Held.forth {x f : σ} {ps fs : List σ} (h : Held g kept (some ⟨ps, x, f :: fs⟩)) :
    Held g kept (some ⟨x :: ps, f, fs⟩) := by
  obtain ⟨hb, hp, hf⟩ := h _ rfl
  rintro z ⟨⟩
  exact ⟨List.forall_mem_cons.mpr ⟨hp, hb⟩, (List.forall_mem_cons.mp hf).1, (List.forall_mem_cons.mp hf).2⟩

/-- The images stay as they are while the snapshots' cells do. -/
theorem Held.image_frame (h : l.Held g kept) (hk : g.Closed s kept) (hs : ∀ q, kept q → g.cell s' q = g.cell s q) :
    l.image g s' = l.image g s := by
  cases l with
  | none => rfl
  | some z =>
    obtain ⟨hb, hp, hf⟩ := h z rfl
    simp only [image, Option.map_some, Zipper.map]
    rw [List.map_congr_left fun v hv => g.image_frame hk (hb v hv) hs, g.image_frame hk hp hs,
      List.map_congr_left fun v hv => g.image_frame hk (hf v hv) hs]

theorem Held.image_grown (h : l.Held g kept) (hk : g.Closed s kept) (hs : g.Grown s s') :
    l.image g s' = l.image g s :=
  h.image_frame hk fun q hq => hs.2 q (hk q hq).1

end Line

/-! ## The calls of a history -/

section Calls

variable (l : Line σ) (s : S) (v : σ)

theorem call_init : (l.history.call storage (.init v)).run s =
    ((.ok none, Line.history (some ⟨[], (storage.copy v s).1, []⟩)), (storage.copy v s).2) := rfl

theorem call_push_empty : ((Line.history (none : Line σ)).call storage (.push v)).run s =
    ((.ok none, Line.history (some ⟨[], (storage.copy v s).1, []⟩)), (storage.copy v s).2) := rfl

theorem call_push (z : Zipper σ) {c : σ} {s' : S} (hc : storage.copy v s = (c, s')) :
    ((Line.history (some z)).call storage (.push v)).run s =
      (((z.push c (storage.equal s' z.present c)).1, (z.push c (storage.equal s' z.present c)).2.history), s') := by
  have hpresent : (Line.history (some z)).isPresent storage s' c = storage.equal s' z.present c := by
    unfold History.isPresent
    rw [Line.history_present?]
    rfl
  have hpush : ((Line.history (some z)).push storage v).run s =
      ((storage.equal s' z.present c).map fun same =>
        if same then Line.history (some z) else (Line.pushed (some z) c).history, s') := by
    rw [← hpresent, ← Line.history_append]
    show (fun r : σ × S => (((Line.history (some z)).isPresent storage r.2 r.1).map fun same =>
      if same then Line.history (some z) else (Line.history (some z)).append r.1, r.2)) (storage.copy v s) = _
    rw [hc]
  unfold History.call
  rw [StateT.run_map, hpush]
  cases storage.equal s' z.present c with
  | error e => rfl
  | ok same => cases same <;> rfl

theorem copiedPresent_run (z : Zipper σ) : ((Line.history (some z)).copiedPresent storage).run s =
    (some (storage.copy z.present s).1, (storage.copy z.present s).2) := by
  unfold History.copiedPresent
  rw [Line.history_present?]
  rfl

theorem call_undo (p x : σ) (ps fs : List σ) :
    ((Line.history (some ⟨p :: ps, x, fs⟩)).call storage .undo).run s =
      ((.ok (some (storage.copy p s).1), Line.history (some ⟨ps, p, x :: fs⟩)), (storage.copy p s).2) := by
  have hcan : (Line.history (some ⟨p :: ps, x, fs⟩)).canUndo = true := Line.history_canUndo _
  have hback : { Line.history (some ⟨p :: ps, x, fs⟩) with
      cursor := (Line.history (some ⟨p :: ps, x, fs⟩)).cursor - 1 } = Line.history (some ⟨ps, p, x :: fs⟩) := by
    simp [Line.history]
  have hundo : ((Line.history (some ⟨p :: ps, x, fs⟩)).undo storage).run s =
      ((some (storage.copy p s).1, Line.history (some ⟨ps, p, x :: fs⟩)), (storage.copy p s).2) := by
    unfold History.undo
    rw [if_pos hcan, hback, StateT.run_bind, copiedPresent_run]
    rfl
  unfold History.call
  rw [StateT.run_map, hundo]
  rfl

theorem call_undo_none (h : l.canUndo = false) :
    (l.history.call storage .undo).run s = ((.ok none, l.history), s) := by
  have hcan : ¬ l.history.canUndo = true := by simp [Line.history_canUndo, h]
  unfold History.call History.undo
  rw [if_neg hcan]
  rfl

theorem call_redo (x f : σ) (ps fs : List σ) :
    ((Line.history (some ⟨ps, x, f :: fs⟩)).call storage .redo).run s =
      ((.ok (some (storage.copy f s).1), Line.history (some ⟨x :: ps, f, fs⟩)), (storage.copy f s).2) := by
  have hcan : (Line.history (some ⟨ps, x, f :: fs⟩)).canRedo = true := Line.history_canRedo _
  have hforth : { Line.history (some ⟨ps, x, f :: fs⟩) with
      cursor := (Line.history (some ⟨ps, x, f :: fs⟩)).cursor + 1 } = Line.history (some ⟨x :: ps, f, fs⟩) := by
    simp [Line.history]
  have hredo : ((Line.history (some ⟨ps, x, f :: fs⟩)).redo storage).run s =
      ((some (storage.copy f s).1, Line.history (some ⟨x :: ps, f, fs⟩)), (storage.copy f s).2) := by
    unfold History.redo
    rw [if_pos hcan, hforth, StateT.run_bind, copiedPresent_run]
    rfl
  unfold History.call
  rw [StateT.run_map, hredo]
  rfl

theorem call_redo_none (h : l.canRedo = false) :
    (l.history.call storage .redo).run s = ((.ok none, l.history), s) := by
  have hcan : ¬ l.history.canRedo = true := by simp [Line.history_canRedo, h]
  unfold History.call History.redo
  rw [if_neg hcan]
  rfl

theorem call_current (z : Zipper σ) : ((Line.history (some z)).call storage .current).run s =
    ((.ok (some (storage.copy z.present s).1), Line.history (some z)), (storage.copy z.present s).2) := by
  unfold History.call History.current
  rw [StateT.run_map, copiedPresent_run]
  rfl

theorem call_current_empty :
    ((Line.history (none : Line σ)).call storage .current).run s = ((.ok none, Line.history none), s) := rfl

theorem call_clear : (l.history.call storage .clear).run s = ((.ok none, Line.history none), s) := rfl

end Calls

/-! ## A call, as the zipper sees it -/

/-- What a call has done is what it does to the images, and the parts of the store are still apart. -/
def Refined (g : Ground storage C α) (s s' : S) (mine : Nat → Prop) (l : Line σ) (c : Call σ)
    (r : Except Trouble (Option σ)) (h' : History σ) : Prop :=
  ∃ l' kept', h' = Line.history l' ∧ Apart g s' (owned g s' mine r) kept' ∧ Line.Held g kept' l' ∧
    (l.image g s).call g.equal (c.map (g.image s)) = (r.map (Option.map (g.image s')), Line.image g s' l')

section Steps

variable {g : Ground storage C α} {s : S} {mine kept : Nat → Prop} {l : Line σ}

theorem refined_idle (hA : Apart g s mine kept) (hL : l.Held g kept) {c : Call σ}
    (hc : (l.image g s).call g.equal (c.map (g.image s)) = (.ok none, l.image g s)) :
    Refined g s s mine l c (.ok none) l.history :=
  ⟨l, kept, rfl, by rwa [owned_none rfl], hL, hc⟩

theorem refined_init (hA : Apart g s mine kept) {v : σ} (hv : g.Rooted mine v) {c : Call σ}
    (hc : (l.image g s).call g.equal (c.map (g.image s)) = (.ok none, some ⟨[], g.image s v, []⟩)) :
    Refined g s (storage.copy v s).2 mine l c (.ok none) (Line.history (some ⟨[], (storage.copy v s).1, []⟩)) := by
  refine ⟨_, _, rfl, by rw [owned_none rfl]; exact hA.put hv,
    Line.held_single fun q hq => Or.inr (g.copy_rooted hA.mineClosed hv q hq), ?_⟩
  rw [hc]
  simp only [Line.image, Option.map_some, Zipper.map, List.map_nil, g.copy_image hA.mineClosed hv]
  rfl

theorem refined_push (hA : Apart g s mine kept) {z : Zipper σ} (hL : Line.Held g kept (some z)) {v : σ}
    (hv : g.Rooted mine v) {c : σ} {s' : S} (hc : storage.copy v s = (c, s')) :
    Refined g s s' mine (some z) (.push v) (z.push c (storage.equal s' z.present c)).1
      (z.push c (storage.equal s' z.present c)).2.history := by
  have hgrown : g.Grown s s' := by simpa [hc] using g.copy_grows s v
  have hfresh : g.Closed s' (g.Fresh s s') := by simpa [hc] using g.copy_closed hA.mineClosed hv
  have hrooted : g.Rooted (g.Fresh s s') c := by simpa [hc] using g.copy_rooted hA.mineClosed hv
  have himage : g.image s' c = g.image s v := by simpa [hc] using g.copy_image hA.mineClosed hv
  have hput : Apart g s' mine fun q => kept q ∨ g.Fresh s s' q := by simpa [hc] using hA.put hv
  have hkept := hA.keptClosed.grown hgrown
  have hpresent := (hL z rfl).present
  have hline := hL.image_grown hA.keptClosed hgrown
  have hheld : Line.Held g (fun q => kept q ∨ g.Fresh s s' q) (some z) := hL.mono fun _ => Or.inl
  -- the present snapshot and the copy have no cell in common, so they compare as their images do
  have hequal : storage.equal s' z.present c = g.equal (g.image s z.present) (g.image s v) := by
    rw [g.equal_images hkept hfresh (fun q hq => hA.keptClosed.not_fresh hq) hpresent hrooted, himage,
      g.image_grown hA.keptClosed hpresent hgrown]
  refine ⟨(z.push c (storage.equal s' z.present c)).2, _, rfl, ?_,
    hheld.push (fun q hq => Or.inr (hrooted q hq)) _, ?_⟩
  · rw [owned_none (z.push_gives_none c _)]
    exact hput
  · rw [← hline, hequal]
    show (z.map (g.image s')).push (g.image s v) (g.equal (g.image s' z.present) (g.image s v)) = _
    rw [← himage, z.push_map, g.image_grown hA.keptClosed hpresent hgrown]
    rfl

theorem refined_take (hA : Apart g s mine kept) {v : σ} (hv : g.Rooted kept v) {l' : Line σ} (hL : l'.Held g kept)
    {c : Call σ}
    (hc : (l.image g s).call g.equal (c.map (g.image s)) = (.ok (some (g.image s v)), l'.image g s)) :
    Refined g s (storage.copy v s).2 mine l c (.ok (some (storage.copy v s).1)) l'.history := by
  refine ⟨l', kept, rfl, hA.take hv, hL, ?_⟩
  rw [hc, hL.image_grown hA.keptClosed (g.copy_grows s v), ← g.copy_image hA.keptClosed hv]
  rfl

theorem call_refined (hA : Apart g s mine kept) (hL : l.Held g kept) {c : Call σ}
    (hc : ∀ v ∈ c.state?, g.Rooted mine v) {s' : S} {r : Except Trouble (Option σ)} {h' : History σ}
    (hrun : (l.history.call storage c).run s = ((r, h'), s')) : Refined g s s' mine l c r h' := by
  cases c with
  | init v =>
    rw [call_init] at hrun
    cases hrun
    exact refined_init hA (hc v rfl) rfl
  | push v =>
    cases l with
    | none =>
      rw [call_push_empty] at hrun
      cases hrun
      exact refined_init hA (hc v rfl) rfl
    | some z =>
      rw [call_push s v z rfl] at hrun
      cases hrun
      exact refined_push hA hL (hc v rfl) rfl
  | undo =>
    match l with
    | none =>
      rw [call_undo_none none s rfl] at hrun
      cases hrun
      exact refined_idle hA hL rfl
    | some ⟨[], x, fs⟩ =>
      rw [call_undo_none _ s rfl] at hrun
      cases hrun
      exact refined_idle hA hL rfl
    | some ⟨p :: ps, x, fs⟩ =>
      rw [call_undo] at hrun
      cases hrun
      exact refined_take hA ((hL _ rfl).before p List.mem_cons_self) hL.back rfl
  | redo =>
    match l with
    | none =>
      rw [call_redo_none none s rfl] at hrun
      cases hrun
      exact refined_idle hA hL rfl
    | some ⟨ps, x, []⟩ =>
      rw [call_redo_none _ s rfl] at hrun
      cases hrun
      exact refined_idle hA hL rfl
    | some ⟨ps, x, f :: fs⟩ =>
      rw [call_redo] at hrun
      cases hrun
      exact refined_take hA ((hL _ rfl).after f List.mem_cons_self) hL.forth rfl
  | current =>
    cases l with
    | none =>
      rw [call_current_empty] at hrun
      cases hrun
      exact refined_idle hA hL rfl
    | some z =>
      rw [call_current] at hrun
      cases hrun
      exact refined_take hA (hL z rfl).present hL rfl
  | clear =>
    rw [call_clear] at hrun
    cases hrun
    exact ⟨none, kept, rfl, by rwa [owned_none rfl], (fun _ hz => by cases hz), rfl⟩

end Steps

/-! ## Runs -/

/-- A history in a store, and the cells that are its caller's. -/
structure World (S σ : Type) where
  store : S
  history : History σ
  mine : Nat → Prop

/-- What can happen, with what the zipper sees of it: nothing of what the caller does to its own
    cells, and of a call the values that go in and come out. -/
inductive Step (g : Ground storage C α) : World S σ → List (Call α × Report α) → World S σ → Prop
  | change {s s' : S} {h : History σ} {mine : Nat → Prop} : g.size s ≤ g.size s' →
      (∀ q < g.size s, ¬ mine q → g.cell s' q = g.cell s q) → g.Closed s' (fun q => mine q ∨ g.Fresh s s' q) →
      Step g ⟨s, h, mine⟩ [] ⟨s', h, fun q => mine q ∨ g.Fresh s s' q⟩
  | call {s s' : S} {h h' : History σ} {mine : Nat → Prop} {c : Call σ} {r : Except Trouble (Option σ)} :
      (∀ v ∈ c.state?, g.Rooted mine v) → (h.call storage c).run s = ((r, h'), s') →
      Step g ⟨s, h, mine⟩ [(c.map (g.image s), h'.report (r.map (Option.map (g.image s'))))]
        ⟨s', h', owned g s' mine r⟩

inductive Run (g : Ground storage C α) : World S σ → List (Call α × Report α) → World S σ → Prop
  | done (w : World S σ) : Run g w [] w
  | step {w w' w'' : World S σ} {seen rest : List (Call α × Report α)} :
      Step g w seen w' → Run g w' rest w'' → Run g w (seen ++ rest) w''

variable {g : Ground storage C α} {w w' : World S σ} {l : Line σ} {kept : Nat → Prop}
  {seen : List (Call α × Report α)}

theorem run_refines (h : Run g w seen w') (hw : w.history = l.history) (hA : Apart g w.store w.mine kept)
    (hL : l.Held g kept) :
    seen.map (·.2) = (l.image g w.store).reports g.equal (seen.map (·.1)) ∧ ∃ l' : Line σ, w'.history = l'.history := by
  induction h generalizing l kept with
  | done w => exact ⟨rfl, l, hw⟩
  | step hs _ ih =>
    cases hs with
    | change hsize hothers hmine =>
      have hsame := hL.image_frame hA.keptClosed fun q hq =>
        hothers q (hA.keptClosed q hq).1 fun hm => hA.apart q hm hq
      obtain ⟨hreports, hend⟩ := ih hw (hA.change hsize hothers hmine) hL
      exact ⟨by rwa [hsame] at hreports, hend⟩
    | call hc hrun =>
      obtain rfl := hw
      obtain ⟨l', kept', rfl, hA', hL', hcall⟩ := call_refined hA hL hc hrun
      obtain ⟨hreports, hend⟩ := ih rfl hA' hL'
      refine ⟨?_, hend⟩
      simp only [List.singleton_append, List.map_cons, Line.reports, hcall]
      rw [Line.history_report, Line.image_report, hreports]

/-- A history that is empty at first, in a store that is all its caller's. -/
def World.start (g : Ground storage C α) (s : S) : World S σ := ⟨s, .empty, g.All s⟩

theorem run_from_start {s : S} (hs : g.Closed s (g.All s)) (h : Run g (World.start g s) seen w') :
    seen.map (·.2) = Line.reports g.equal none (seen.map (·.1)) ∧
      (w'.history.cursor = -1 ↔ w'.history.length = 0) ∧
      (0 < w'.history.length → 0 ≤ w'.history.cursor ∧ w'.history.cursor < w'.history.length) := by
  have hA : Apart g s (g.All s) fun _ => False :=
    ⟨hs, fun _ hq => hq.elim, fun _ _ hq => hq⟩
  have hL : Line.Held g (fun _ => False) (none : Line σ) := fun _ hz => by cases hz
  obtain ⟨hreports, l, hl⟩ := run_refines h (l := none) rfl hA hL
  refine ⟨hreports, ?_⟩
  rw [hl, Line.history_cursor, Line.history_length]
  cases l with
  | none => simp [Line.cursor, Line.length]
  | some z =>
    simp only [Line.cursor, Line.length]
    omega

/-- Whatever calls are made and whatever the caller does between them to what it handed in or
    received, and to all else but the snapshots, a history reports what the zipper of immutable
    values reports. Its cursor is -1 if it has no snapshots, and one of them otherwise. This is
    so for values on the heap, shared and cyclic, and for flows. -/
theorem history_is_a_zipper :
    (∀ (h : Heap) seen w, values.Closed h (values.All h) → Run values (World.start values h) seen w →
      seen.map (·.2) = Line.reports Picture.equal none (seen.map (·.1)) ∧
        (w.history.cursor = -1 ↔ w.history.length = 0) ∧
        (0 < w.history.length → 0 ≤ w.history.cursor ∧ w.history.cursor < w.history.length)) ∧
    (∀ (s : FlowStore) seen w, Run flows (World.start flows s) seen w →
      seen.map (·.2) = Line.reports flows.equal none (seen.map (·.1)) ∧
        (w.history.cursor = -1 ↔ w.history.length = 0) ∧
        (0 < w.history.length → 0 ≤ w.history.cursor ∧ w.history.cursor < w.history.length)) := by
  refine ⟨fun h seen w hs hr => run_from_start hs hr, fun s seen w hr => run_from_start (fun q hq => ?_) hr⟩
  exact ⟨hq, List.forall_mem_nil _⟩

theorem history_of_a_changed_list :
    ∃ seen w, values.Closed ⟨#[.list [.int 1]], 1⟩ (values.All ⟨#[.list [.int 1]], 1⟩) ∧
      Run values (World.start values ⟨#[.list [.int 1]], 1⟩) seen w ∧
      seen.map (·.1) = [.init ⟨.ref 0, [.list [.int 1]]⟩, .push ⟨.ref 0, [.list [.int 2]]⟩, .undo] ∧
      seen.map (·.2) = Line.reports Picture.equal none (seen.map (·.1)) ∧
      w.history.cursor = 0 ∧ w.history.length = 2 := by
  have hinit : ((History.empty : History Value).call valueStorage (.init (.ref 0))).run ⟨#[.list [.int 1]], 1⟩ =
      ((.ok none, ⟨[.ref 1], 0⟩), ⟨#[.list [.int 1], .list [.int 1]], 1⟩) := by cbv
  have hpush : ((⟨[.ref 1], 0⟩ : History Value).call valueStorage (.push (.ref 0))).run
      ⟨#[.list [.int 2], .list [.int 1]], 1⟩ =
        ((.ok none, ⟨[.ref 1, .ref 2], 1⟩), ⟨#[.list [.int 2], .list [.int 1], .list [.int 2]], 1⟩) := by cbv
  have hundo : ((⟨[.ref 1, .ref 2], 1⟩ : History Value).call valueStorage .undo).run
      ⟨#[.list [.int 2], .list [.int 1], .list [.int 2]], 1⟩ =
        ((.ok (some (.ref 3)), ⟨[.ref 1, .ref 2], 0⟩),
          ⟨#[.list [.int 2], .list [.int 1], .list [.int 2], .list [.int 1]], 1⟩) := by cbv
  have hclosed : values.Closed ⟨#[.list [.int 1]], 1⟩ (values.All ⟨#[.list [.int 1]], 1⟩) := by
    intro q hq
    obtain rfl : q = 0 := Nat.lt_one_iff.mp hq
    exact ⟨hq, List.forall_mem_nil _⟩
  have hgiven : ∀ (mine : Nat → Prop) (c : Call Value), c.state? = some (.ref 0) → mine 0 →
      ∀ v ∈ c.state?, values.Rooted mine v := by
    intro mine c hc hm v hv
    rw [hc] at hv
    cases hv
    exact List.forall_mem_singleton.mpr hm
  have handed := Step.call (g := values)
    (hgiven (values.All ⟨#[.list [.int 1]], 1⟩) (.init (.ref 0)) rfl Nat.zero_lt_one) hinit
  rw [owned_none rfl] at handed
  have hsize : values.size ⟨#[.list [.int 1], .list [.int 1]], 1⟩ ≤
      values.size ⟨#[.list [.int 2], .list [.int 1]], 1⟩ := Nat.le_refl 2
  have hothers : ∀ q < 2, ¬ values.All ⟨#[.list [.int 1]], 1⟩ q →
      values.cell ⟨#[.list [.int 2], .list [.int 1]], 1⟩ q = values.cell ⟨#[.list [.int 1], .list [.int 1]], 1⟩ q := by
    intro q hq hm
    obtain rfl | rfl : q = 0 ∨ q = 1 := by omega
    · exact absurd Nat.zero_lt_one hm
    · rfl
  have hmine : values.Closed ⟨#[.list [.int 2], .list [.int 1]], 1⟩ fun q => values.All ⟨#[.list [.int 1]], 1⟩ q ∨
      values.Fresh ⟨#[.list [.int 1], .list [.int 1]], 1⟩ ⟨#[.list [.int 2], .list [.int 1]], 1⟩ q := by
    rintro q (hq | hq)
    · obtain rfl : q = 0 := Nat.lt_one_iff.mp hq
      exact ⟨Nat.zero_lt_two, List.forall_mem_nil _⟩
    · exact absurd hq.2 (Nat.not_lt.mpr hq.1)
  have changed := Step.change (h := ⟨[.ref 1], 0⟩) hsize hothers hmine
  have hrun : Run values (World.start values ⟨#[.list [.int 1]], 1⟩) _ _ :=
    .step handed (.step changed (.step (.call (hgiven _ (.push (.ref 0)) rfl (Or.inl Nat.zero_lt_one)) hpush)
      (.step (.call (fun _ hv => by cases hv) hundo) (.done _))))
  obtain ⟨hreports, hrange⟩ := history_is_a_zipper.1 _ _ _ hclosed hrun
  refine ⟨_, _, hclosed, hrun, ?_, hreports, ?_⟩
  · rfl
  · exact ⟨rfl, rfl⟩

end StepFlow.History
