/-
  StepFlow.Proofs.History.Retracing — undo and redo go to a different state each time, and a walk
  back and forth goes through the same states.

  A zipper never has a value next to one that it equals (`Line.Unequal`): that is what `push` asks
  before it puts one there, and no call brings others together. The snapshots are copies that have
  no cell in common (`Separate`), so they compare as their values do, and so do the copies of them
  that a caller receives. Equality is that of the storage, with the earlier state on the left; it
  says no, and does not fail.

  Proved:
  - `Kept.run`: all this holds after every run, and the zipper is the one that the calls give.
  - `turned`: a walk of as many undos and redos, on a zipper.
  - `undo_and_redo_retrace`: so for values on the heap and for flows, after any calls and whatever
    the caller does to its own states.
-/

import StepFlow.Proofs.History.Zipper

namespace StepFlow.History

variable {S σ C α : Type} {storage : Storage S σ} {g : Ground storage C α}

/-! ## Neighbours in a zipper -/

namespace Line

/-- All states, the earliest first. -/
def states : Line α → List α
  | none => []
  | some z => z.before.reverse ++ z.present :: z.after

theorem history_snapshots (l : Line σ) : l.history.snapshots = l.states := by cases l <;> rfl

theorem image_states (g : Ground storage C α) (s : S) (l : Line σ) :
    (l.image g s).states = l.states.map (g.image s) := by
  cases l with
  | none => rfl
  | some z => simp [image, states, Zipper.map]

theorem image_cursor (g : Ground storage C α) (s : S) (l : Line σ) : (l.image g s).cursor = l.cursor :=
  congrArg Report.cursor (image_report (α := α) (.ok none))

theorem image_length (g : Ground storage C α) (s : S) (l : Line σ) : (l.image g s).length = l.length :=
  congrArg Report.length (image_report (α := α) (.ok none))

theorem Held.states {kept : Nat → Prop} {l : Line σ} (h : l.Held g kept) : ∀ v ∈ l.states, g.Rooted kept v := by
  intro v hv
  cases l with
  | none => cases hv
  | some z =>
    obtain ⟨hb, hp, hf⟩ := h z rfl
    simp only [Line.states, List.mem_append, List.mem_reverse, List.mem_cons] at hv
    rcases hv with hv | rfl | hv
    · exact hb v hv
    · exact hp
    · exact hf v hv

theorem states_forth (ps fs : List α) (x f : α) :
    states (some ⟨x :: ps, f, fs⟩) = states (some ⟨ps, x, f :: fs⟩) := by
  simp [states]

variable {equal : α → α → Except Trouble Bool} {l : Line α}

/-- No state equals the one after it. -/
def Unequal (equal : α → α → Except Trouble Bool) (l : Line α) : Prop :=
  l.states.IsChain fun x y => equal x y = .ok false

theorem unequal_single (x : α) : Unequal equal (some ⟨[], x, []⟩) := .singleton x

theorem Unequal.next {ps fs : List α} {x f : α} (h : Unequal equal (some ⟨ps, x, f :: fs⟩)) : equal x f = .ok false :=
  (List.isChain_append_cons_cons.mp h).2.1

theorem Unequal.back {ps fs : List α} {p x : α} (h : Unequal equal (some ⟨p :: ps, x, fs⟩)) :
    Unequal equal (some ⟨ps, p, x :: fs⟩) := by
  unfold Unequal at h ⊢
  rwa [states_forth] at h

theorem Unequal.forth {ps fs : List α} {x f : α} (h : Unequal equal (some ⟨ps, x, f :: fs⟩)) :
    Unequal equal (some ⟨x :: ps, f, fs⟩) := by
  unfold Unequal at h ⊢
  rwa [← states_forth] at h

theorem Unequal.push {z : Zipper α} {x : α} (h : Unequal equal (some z)) :
    Unequal equal (z.push x (equal z.present x)).2 := by
  unfold Zipper.push
  split
  · exact h
  · exact h
  · rename_i hnew
    -- what came after the present state goes, and the new one differs from it
    have hkept : (z.before.reverse ++ [z.present]).IsChain fun x y => equal x y = .ok false :=
      h.prefix ⟨z.after, by simp [states]⟩
    have hline : states (some ⟨z.present :: z.before, x, []⟩) = z.before.reverse ++ z.present :: x :: [] := by
      simp [states]
    unfold Unequal
    rw [hline, List.isChain_append_cons_cons]
    exact ⟨hkept, hnew, .singleton x⟩

/-- No call brings equal states together. -/
theorem Unequal.call (h : l.Unequal equal) (c : Call α) : Unequal equal (l.call equal c).2 := by
  cases c with
  | init x => exact unequal_single x
  | push x => match l, h with
    | none, _ => exact unequal_single x
    | some z, h => exact h.push
  | undo => match l, h with
    | none, h => exact h
    | some ⟨[], x, fs⟩, h => exact h
    | some ⟨p :: ps, x, fs⟩, h => exact h.back
  | redo => match l, h with
    | none, h => exact h
    | some ⟨ps, x, []⟩, h => exact h
    | some ⟨ps, x, f :: fs⟩, h => exact h.forth
  | current => exact h
  | clear => exact .nil

/-- The line after calls in turn. -/
def after (equal : α → α → Except Trouble Bool) (l : Line α) (cs : List (Call α)) : Line α :=
  cs.foldl (fun l c => (l.call equal c).2) l

theorem after_append (cs ds : List (Call α)) : l.after equal (cs ++ ds) = (l.after equal cs).after equal ds :=
  List.foldl_append

/-! ## Back and forth in a zipper -/

/-- What calls give in turn. -/
def results (equal : α → α → Except Trouble Bool) (l : Line α) (cs : List (Call α)) :
    List (Except Trouble (Option α)) :=
  (l.reports equal cs).map (·.result)

theorem results_cons (c : Call α) (cs : List (Call α)) :
    l.results equal (c :: cs) = (l.call equal c).1 :: results equal (l.call equal c).2 cs := rfl

theorem results_append (cs ds : List (Call α)) :
    l.results equal (cs ++ ds) = l.results equal cs ++ (l.after equal cs).results equal ds := by
  induction cs generalizing l with
  | nil => rfl
  | cons c cs ih =>
    rw [List.cons_append, results_cons, results_cons, ih, List.cons_append]
    rfl

end Line

/-- So many undos, each after a look at the present state, and as many redos. -/
def thereAndBack (n : Nat) : List (Call α) :=
  (List.replicate n [.current, .undo]).flatten ++ List.replicate n .redo

/-- What they give if all succeed: the present states with the undone ones, and the present states
    once more in reverse order. -/
def turned (states undone : List α) : List (Except Trouble (Option α)) :=
  (List.zipWith (fun x y => [.ok (some x), .ok (some y)]) states undone).flatten ++
    states.reverse.map fun x => .ok (some x)

theorem thereAndBack_succ (n : Nat) :
    (thereAndBack (n + 1) : List (Call α)) = [.current, .undo] ++ thereAndBack n ++ [.redo] := by
  simp only [thereAndBack, List.replicate_succ' (a := Call.redo), List.replicate_succ, List.flatten_cons,
    List.append_assoc]

theorem turned_cons (x y : α) (states undone : List α) :
    turned (x :: states) (y :: undone) = [.ok (some x), .ok (some y)] ++ turned states undone ++ [.ok (some x)] := by
  simp [turned]

theorem results_thereAndBack (equal : α → α → Except Trouble Bool) (n : Nat) (z : Zipper α)
    (hn : n ≤ z.before.length) :
    ∃ states undone, states.length = n ∧ undone.length = n ∧
      Line.results equal (some z) (thereAndBack n) = turned states undone ∧
      Line.after equal (some z) (thereAndBack n) = some z := by
  induction n generalizing z with
  | zero => exact ⟨[], [], rfl, rfl, rfl, rfl⟩
  | succ n ih =>
    obtain ⟨ps, x, fs⟩ := z
    cases ps with
    | nil => exact absurd hn (Nat.not_succ_le_zero n)
    | cons p ps =>
      -- one step back, the shorter walk, and one step forth again
      obtain ⟨states, undone, hstates, hundone, hresults, hafter⟩ :=
        ih ⟨ps, p, x :: fs⟩ (Nat.le_of_succ_le_succ hn)
      refine ⟨x :: states, p :: undone, congrArg (· + 1) hstates, congrArg (· + 1) hundone, ?_, ?_⟩
      · rw [thereAndBack_succ, List.append_assoc, Line.results_append]
        show [.ok (some x), .ok (some p)] ++ Line.results equal (some ⟨ps, p, x :: fs⟩) _ = _
        rw [Line.results_append, hresults, hafter, turned_cons, List.append_assoc]
        rfl
      · rw [thereAndBack_succ, List.append_assoc, Line.after_append]
        show Line.after equal (some ⟨ps, p, x :: fs⟩) _ = _
        rw [Line.after_append, hafter]
        rfl

/-! ## Snapshots without a common cell -/

section Separate

variable {s s' : S} {P : Nat → Prop} {vs : List σ}

def Separate (g : Ground storage C α) (s : S) (vs : List σ) : Prop :=
  vs.Pairwise fun a b => ∀ q, g.Reached s a q → ¬ g.Reached s b q

theorem reached_frame (hP : g.Closed s P) {v : σ} (hv : g.Rooted P v) (hs : ∀ q, P q → g.cell s' q = g.cell s q)
    {q : Nat} (h : g.Reached s' v q) : g.Reached s v q := by
  induction h with
  | root hq => exact .root hq
  | point _ hr ih =>
    rw [hs _ (ih.within hP hv)] at hr
    exact .point ih hr

theorem Separate.frame (h : Separate g s vs) (hP : g.Closed s P) (hvs : ∀ v ∈ vs, g.Rooted P v)
    (hs : ∀ q, P q → g.cell s' q = g.cell s q) : Separate g s' vs :=
  h.imp_of_mem fun ha hb hab q hqa hqb =>
    hab q (reached_frame hP (hvs _ ha) hs hqa) (reached_frame hP (hvs _ hb) hs hqb)

theorem Separate.grown (h : Separate g s vs) (hP : g.Closed s P) (hvs : ∀ v ∈ vs, g.Rooted P v)
    (hs : g.Grown s s') : Separate g s' vs :=
  h.frame hP hvs fun q hq => hs.2 q (hP q hq).1

/-- A copy is in new cells. -/
theorem Separate.copied (h : Separate g s vs) (hP : g.Closed s P) (hvs : ∀ v ∈ vs, g.Rooted P v)
    {Q : Nat → Prop} (hQ : g.Closed s Q) {v : σ} (hv : g.Rooted Q v) :
    Separate g (storage.copy v s).2 (vs ++ [(storage.copy v s).1]) := by
  have hgrown := g.copy_grows s v
  refine List.pairwise_append.mpr ⟨h.grown hP hvs hgrown, List.pairwise_singleton _ _, ?_⟩
  intro a ha b hb q hqa hqb
  rw [List.mem_singleton.mp hb] at hqb
  exact hP.not_fresh (hqa.within (hP.grown hgrown) (hvs a ha))
    (hqb.within (g.copy_closed hQ hv) (g.copy_rooted hQ hv))

/-- A call keeps the snapshots, or some of them, and may put a copy of what is handed in at the
    end. -/
theorem call_snapshots (g : Ground storage C α) {l : Line σ} {c : Call σ} {r : Except Trouble (Option σ)}
    {h' : History σ} (hrun : (l.history.call storage c).run s = ((r, h'), s')) :
    (g.Grown s s' ∧ h'.snapshots.Sublist l.states) ∨
      ∃ v kept, c.state? = some v ∧ s' = (storage.copy v s).2 ∧ kept.Sublist l.states ∧
        h'.snapshots = kept ++ [(storage.copy v s).1] := by
  cases c with
  | init v =>
    rw [call_init] at hrun
    cases hrun
    exact .inr ⟨v, [], rfl, rfl, List.nil_sublist _, rfl⟩
  | push v =>
    cases l with
    | none =>
      rw [call_push_empty] at hrun
      cases hrun
      exact .inr ⟨v, [], rfl, rfl, List.nil_sublist _, rfl⟩
    | some z =>
      rw [call_push s v z rfl] at hrun
      cases hrun
      unfold Zipper.push
      split
      · exact .inl ⟨g.copy_grows s v, .refl _⟩
      · exact .inl ⟨g.copy_grows s v, .refl _⟩
      · refine .inr ⟨v, z.before.reverse ++ [z.present], rfl, rfl, ?_, by simp [Line.history]⟩
        exact (List.Sublist.refl _).append (List.singleton_sublist.mpr List.mem_cons_self)
  | undo =>
    rcases l with _ | ⟨_ | ⟨p, ps⟩, x, fs⟩
    · rw [call_undo_none none s rfl] at hrun
      cases hrun
      exact .inl ⟨.refl s, .refl _⟩
    · rw [call_undo_none _ s rfl] at hrun
      cases hrun
      exact .inl ⟨.refl s, .refl _⟩
    · rw [call_undo] at hrun
      cases hrun
      refine .inl ⟨g.copy_grows s p, ?_⟩
      rw [Line.history_snapshots, Line.states_forth]
  | redo =>
    rcases l with _ | ⟨ps, x, _ | ⟨f, fs⟩⟩
    · rw [call_redo_none none s rfl] at hrun
      cases hrun
      exact .inl ⟨.refl s, .refl _⟩
    · rw [call_redo_none _ s rfl] at hrun
      cases hrun
      exact .inl ⟨.refl s, .refl _⟩
    · rw [call_redo] at hrun
      cases hrun
      refine .inl ⟨g.copy_grows s f, ?_⟩
      rw [Line.history_snapshots, Line.states_forth]
  | current =>
    cases l with
    | none =>
      rw [call_current_empty] at hrun
      cases hrun
      exact .inl ⟨.refl s, .refl _⟩
    | some z =>
      rw [call_current] at hrun
      cases hrun
      exact .inl ⟨g.copy_grows s z.present, .refl _⟩
  | clear =>
    rw [call_clear] at hrun
    cases hrun
    exact .inl ⟨.refl s, List.nil_sublist _⟩

end Separate

/-! ## Runs -/

/-- What holds of a history and its store after every run. -/
structure Kept (g : Ground storage C α) (w : World S σ) (l : Line σ) (kept : Nat → Prop) : Prop where
  history : w.history = l.history
  apart : Apart g w.store w.mine kept
  held : l.Held g kept
  separate : Separate g w.store l.states
  unequal : (l.image g w.store).Unequal g.equal

section Runs

variable {w w' : World S σ} {l : Line σ} {kept : Nat → Prop} {seen : List (Call α × Report α)}

theorem kept_start {s : S} (hs : g.Closed s (g.All s)) : Kept g (World.start g s) none fun _ => False where
  history := rfl
  apart := ⟨hs, fun _ hq => hq.elim, fun _ _ hq => hq⟩
  held := fun _ hz => by cases hz
  separate := .nil
  unequal := .nil

theorem Kept.step (h : Kept g w l kept) (hs : Step g w seen w') :
    ∃ l' kept', Kept g w' l' kept' ∧ l'.image g w'.store = (l.image g w.store).after g.equal (seen.map (·.1)) := by
  cases hs with
  | change hsize hothers hmine =>
    have hcells := fun q hq => hothers q (h.apart.keptClosed q hq).1 fun hm => h.apart.apart q hm hq
    have hsame := h.held.image_frame h.apart.keptClosed hcells
    refine ⟨l, kept, ⟨h.history, h.apart.change hsize hothers hmine, h.held,
      h.separate.frame h.apart.keptClosed h.held.states hcells, ?_⟩, hsame⟩
    show (l.image g _).Unequal g.equal
    rw [hsame]
    exact h.unequal
  | @call s s' _ h' mine c r hc hrun =>
    obtain rfl := h.history
    obtain ⟨l', kept', rfl, hapart, hheld, hcall⟩ := call_refined h.apart h.held hc hrun
    refine ⟨l', kept', ⟨rfl, hapart, hheld, ?_, ?_⟩, ?_⟩
    · rw [← Line.history_snapshots]
      rcases call_snapshots g hrun with ⟨hgrown, hsub⟩ | ⟨v, vs, hv, rfl, hsub, hsnapshots⟩
      · exact (h.separate.grown h.apart.keptClosed h.held.states hgrown).sublist hsub
      · rw [hsnapshots]
        exact Separate.copied (h.separate.sublist hsub) h.apart.keptClosed (fun v hv => h.held.states v (hsub.mem hv))
          h.apart.mineClosed (hc v hv)
    · have hunequal := h.unequal.call (c.map (g.image s))
      rwa [hcall] at hunequal
    · exact (congrArg Prod.snd hcall).symm

theorem Kept.run (h : Kept g w l kept) (hr : Run g w seen w') :
    ∃ l' kept', Kept g w' l' kept' ∧ l'.image g w'.store = (l.image g w.store).after g.equal (seen.map (·.1)) := by
  induction hr generalizing l kept with
  | done w => exact ⟨l, kept, h, rfl⟩
  | step hs _ ih =>
    obtain ⟨l₁, kept₁, h₁, hline₁⟩ := h.step hs
    obtain ⟨l₂, kept₂, h₂, hline₂⟩ := ih h₁
    refine ⟨l₂, kept₂, h₂, ?_⟩
    rw [hline₂, hline₁, List.map_append, Line.after_append]

/-- Copies of two snapshots, one made after the other, compare as the snapshots' values do. -/
theorem copies_equal (hA : Apart g w.store w.mine kept) {a b : σ} (ha : g.Rooted kept a) (hb : g.Rooted kept b)
    {c d : σ} {s₁ s₂ : S} (hc : storage.copy a w.store = (c, s₁)) (hd : storage.copy b s₁ = (d, s₂)) :
    storage.equal s₂ c d = g.equal (g.image w.store a) (g.image w.store b) ∧
      storage.equal s₂ d c = g.equal (g.image w.store b) (g.image w.store a) := by
  have hgrown : g.Grown w.store s₁ := by simpa [hc] using g.copy_grows w.store a
  have hgrown₂ : g.Grown s₁ s₂ := by simpa [hd] using g.copy_grows s₁ b
  have hkept := hA.keptClosed.grown hgrown
  have hcClosed : g.Closed s₁ (g.Fresh w.store s₁) := by simpa [hc] using g.copy_closed hA.keptClosed ha
  have hcRooted : g.Rooted (g.Fresh w.store s₁) c := by simpa [hc] using g.copy_rooted hA.keptClosed ha
  have hcImage : g.image s₁ c = g.image w.store a := by simpa [hc] using g.copy_image hA.keptClosed ha
  have hdClosed : g.Closed s₂ (g.Fresh s₁ s₂) := by simpa [hd] using g.copy_closed hkept hb
  have hdRooted : g.Rooted (g.Fresh s₁ s₂) d := by simpa [hd] using g.copy_rooted hkept hb
  have hdImage : g.image s₂ d = g.image s₁ b := by simpa [hd] using g.copy_image hkept hb
  have hapart : ∀ q, g.Fresh w.store s₁ q → ¬ g.Fresh s₁ s₂ q := fun q hq => hcClosed.not_fresh hq
  have hcLater : g.image s₂ c = g.image w.store a := by rw [g.image_grown hcClosed hcRooted hgrown₂, hcImage]
  have hdLater : g.image s₂ d = g.image w.store b := by rw [hdImage, g.image_grown hA.keptClosed hb hgrown]
  have hcClosed₂ := hcClosed.grown hgrown₂
  rw [g.equal_images hcClosed₂ hdClosed hapart hcRooted hdRooted,
    g.equal_images hdClosed hcClosed₂ (fun q hd hc => hapart q hc hd) hdRooted hcRooted, hcLater, hdLater]
  exact ⟨rfl, rfl⟩

end Runs

/-! ## What a caller sees -/

/-- A look at the present state, so many undos and redos, and another look. -/
def retracing (n : Nat) : List (Call α) := .current :: (thereAndBack n ++ [.current])

/-- Neighbours are not equal. What an undo or a redo gives when it moves is not equal to the state
    that was present before. As many undos as can be made, and as many redos, all succeed; these
    give the states that were present before each undo, in reverse order; and the present state,
    the cursor and the length are then what they were. -/
structure Retraces (g : Ground storage C α) (w : World S σ) : Prop where
  neighbours : ∀ i a b, w.history.snapshots[i]? = some a → w.history.snapshots[i + 1]? = some b →
    storage.equal w.store a b = .ok false
  undo_moves : ∀ now s₁ given h' s₂, (w.history.current storage).run w.store = (now, s₁) →
    (w.history.undo storage).run s₁ = ((given, h'), s₂) → h'.cursor ≠ w.history.cursor →
    ∃ a b, given = some a ∧ now = some b ∧ storage.equal s₂ a b = .ok false
  redo_moves : ∀ now s₁ given h' s₂, (w.history.current storage).run w.store = (now, s₁) →
    (w.history.redo storage).run s₁ = ((given, h'), s₂) → h'.cursor ≠ w.history.cursor →
    ∃ a b, now = some a ∧ given = some b ∧ storage.equal s₂ a b = .ok false
  can_retrace : ∀ n : Nat, n ≤ w.history.cursor → ∃ seen w', Run g w seen w' ∧ seen.map (·.1) = retracing n
  retraced : ∀ n : Nat, n ≤ w.history.cursor → ∀ seen w', Run g w seen w' → seen.map (·.1) = retracing n →
    ∃ now states undone, states.length = n ∧ undone.length = n ∧
      seen.map (·.2.result) = .ok (some now) :: (turned states undone ++ [.ok (some now)]) ∧
      w'.history.cursor = w.history.cursor ∧ w'.history.length = w.history.length

/-- Calls that nothing is handed to can always be made. -/
theorem calls_run (w : World S σ) (cs : List (Call σ)) (hcs : ∀ c ∈ cs, c.state? = none) (f : σ → α) :
    ∃ seen w', Run g w seen w' ∧ seen.map (·.1) = cs.map (Call.map f) := by
  induction cs generalizing w with
  | nil => exact ⟨[], w, .done w, rfl⟩
  | cons c cs ih =>
    have hstate := hcs c List.mem_cons_self
    have hmap : c.map (g.image w.store) = c.map f := by cases c <;> first | rfl | cases hstate
    obtain ⟨s, h, mine⟩ := w
    obtain ⟨⟨⟨r, h'⟩, s'⟩, hrun⟩ : ∃ o, (h.call storage c).run s = o := ⟨_, rfl⟩
    have hhanded : ∀ v ∈ c.state?, g.Rooted mine v := fun v hv => by cases hstate.symm.trans hv
    have hs := Step.call hhanded hrun
    obtain ⟨seen, w', hr, hseen⟩ := ih ⟨s', h', owned g s' mine r⟩ fun d hd => hcs d (List.mem_cons_of_mem c hd)
    exact ⟨_, w', .step hs hr, by rw [List.map_append, hseen]; exact congrArg (· :: _) hmap⟩

theorem mem_retracing {n : Nat} {c : Call σ} (h : c ∈ retracing n) : c = .current ∨ c = .undo ∨ c = .redo := by
  simp only [retracing, thereAndBack, List.mem_cons, List.mem_append, List.mem_flatten, List.mem_replicate,
    List.not_mem_nil, or_false] at h
  rcases h with rfl | (⟨calls, ⟨-, rfl⟩, hc⟩ | ⟨-, rfl⟩) | rfl
  · exact .inl rfl
  · rcases List.mem_pair.mp hc with rfl | rfl
    · exact .inl rfl
    · exact .inr (.inl rfl)
  · exact .inr (.inr rfl)
  · exact .inl rfl

theorem map_retracing (f : σ → α) (n : Nat) : (retracing n : List (Call σ)).map (Call.map f) = retracing n := by
  simp [retracing, thereAndBack, Call.map]

section Kept

variable {w : World S σ} {l : Line σ} {kept : Nat → Prop} (h : Kept g w l kept)
include h

theorem Kept.neighbours {i : Nat} {a b : σ} (ha : w.history.snapshots[i]? = some a)
    (hb : w.history.snapshots[i + 1]? = some b) : storage.equal w.store a b = .ok false := by
  rw [h.history, Line.history_snapshots] at ha hb
  obtain ⟨hi, rfl⟩ := List.getElem?_eq_some_iff.mp ha
  obtain ⟨hj, rfl⟩ := List.getElem?_eq_some_iff.mp hb
  have hroot := h.held.states l.states[i] (List.getElem_mem hi)
  have hroot' := h.held.states l.states[i + 1] (List.getElem_mem hj)
  have hclosed := Layout.reached_closed h.apart.keptClosed hroot
  have hclosed' := Layout.reached_closed h.apart.keptClosed hroot'
  have hapart := List.pairwise_iff_getElem.mp h.separate i (i + 1) hi hj (Nat.lt_succ_self i)
  rw [g.equal_images hclosed hclosed' hapart (fun q hq => .root hq) fun q hq => .root hq]
  have hunequal := h.unequal
  unfold Line.Unequal at hunequal
  rw [Line.image_states, List.isChain_map] at hunequal
  exact List.isChain_iff_getElem.mp hunequal i hj

theorem Kept.undo_moves {now given : Option σ} {s₁ s₂ : S} {h' : History σ}
    (hnow : (w.history.current storage).run w.store = (now, s₁))
    (hundo : (w.history.undo storage).run s₁ = ((given, h'), s₂)) (hmoves : h'.cursor ≠ w.history.cursor) :
    ∃ a b, given = some a ∧ now = some b ∧ storage.equal s₂ a b = .ok false := by
  have hcall : (w.history.call storage .undo).run s₁ = ((.ok given, h'), s₂) := by
    unfold call
    rw [StateT.run_map, hundo]
    rfl
  rw [h.history] at hcall hnow hmoves
  match l, h with
  | none, _ =>
    rw [call_undo_none none s₁ rfl] at hcall
    cases hcall
    exact absurd rfl hmoves
  | some ⟨[], x, fs⟩, _ =>
    rw [call_undo_none _ s₁ rfl] at hcall
    cases hcall
    exact absurd rfl hmoves
  | some ⟨p :: ps, x, fs⟩, h =>
    rw [call_undo] at hcall
    cases hcall
    rw [History.current, copiedPresent_run] at hnow
    cases hnow
    have hheld := h.held _ rfl
    have hcopies := copies_equal h.apart hheld.present (hheld.before p List.mem_cons_self) rfl rfl
    exact ⟨_, _, rfl, rfl, hcopies.2.trans h.unequal.back.next⟩

theorem Kept.redo_moves {now given : Option σ} {s₁ s₂ : S} {h' : History σ}
    (hnow : (w.history.current storage).run w.store = (now, s₁))
    (hredo : (w.history.redo storage).run s₁ = ((given, h'), s₂)) (hmoves : h'.cursor ≠ w.history.cursor) :
    ∃ a b, now = some a ∧ given = some b ∧ storage.equal s₂ a b = .ok false := by
  have hcall : (w.history.call storage .redo).run s₁ = ((.ok given, h'), s₂) := by
    unfold call
    rw [StateT.run_map, hredo]
    rfl
  rw [h.history] at hcall hnow hmoves
  match l, h with
  | none, _ =>
    rw [call_redo_none none s₁ rfl] at hcall
    cases hcall
    exact absurd rfl hmoves
  | some ⟨ps, x, []⟩, _ =>
    rw [call_redo_none _ s₁ rfl] at hcall
    cases hcall
    exact absurd rfl hmoves
  | some ⟨ps, x, f :: fs⟩, h =>
    rw [call_redo] at hcall
    cases hcall
    rw [History.current, copiedPresent_run] at hnow
    cases hnow
    have hheld := h.held _ rfl
    have hcopies := copies_equal h.apart hheld.present (hheld.after f List.mem_cons_self) rfl rfl
    exact ⟨_, _, rfl, rfl, hcopies.1.trans h.unequal.next⟩

theorem Kept.retraced {n : Nat} (hn : n ≤ w.history.cursor) {seen : List (Call α × Report α)} {w' : World S σ}
    (hr : Run g w seen w') (hseen : seen.map (·.1) = retracing n) :
    ∃ now states undone, states.length = n ∧ undone.length = n ∧
      seen.map (·.2.result) = .ok (some now) :: (turned states undone ++ [.ok (some now)]) ∧
      w'.history.cursor = w.history.cursor ∧ w'.history.length = w.history.length := by
  obtain ⟨hreports, -⟩ := run_refines hr h.history h.apart h.held
  obtain ⟨l', kept', h', hline⟩ := h.run hr
  rw [hseen] at hreports hline
  match l, h with
  | none, h =>
    rw [h.history] at hn
    have hempty : (Line.history (none : Line σ)).cursor = -1 := rfl
    omega
  | some z, h =>
    have hlen : n ≤ (z.map (g.image w.store)).before.length := by
      rw [h.history] at hn
      simpa [Line.history, Zipper.map] using hn
    obtain ⟨states, undone, hstates, hundone, hresults, hafter⟩ :=
      results_thereAndBack g.equal n (z.map (g.image w.store)) hlen
    have hsame : l'.image g w'.store = Line.image g w.store (some z) := by
      rw [hline]
      show Line.after g.equal (some (z.map (g.image w.store))) (thereAndBack n ++ [.current]) = _
      rw [Line.after_append, hafter]
      rfl
    refine ⟨g.image w.store z.present, states, undone, hstates, hundone, ?_, ?_, ?_⟩
    · have hresult : seen.map (·.2.result) = (seen.map (·.2)).map (·.result) := by rw [List.map_map]; rfl
      rw [hresult, hreports]
      show Line.results g.equal (some (z.map (g.image w.store))) (retracing n) = _
      rw [retracing, Line.results_cons]
      show _ :: Line.results g.equal (some (z.map (g.image w.store))) (thereAndBack n ++ [.current]) = _
      rw [Line.results_append, hresults, hafter]
      rfl
    · have hcursor := congrArg Line.cursor hsame
      rw [Line.image_cursor, Line.image_cursor] at hcursor
      rw [h'.history, h.history, Line.history_cursor, Line.history_cursor, hcursor]
    · have hlength := congrArg Line.length hsame
      rw [Line.image_length, Line.image_length] at hlength
      rw [h'.history, h.history, Line.history_length, Line.history_length, hlength]

theorem Kept.retraces : Retraces g w where
  neighbours := fun _ _ _ => h.neighbours
  undo_moves := fun _ _ _ _ _ => h.undo_moves
  redo_moves := fun _ _ _ _ _ => h.redo_moves
  can_retrace := by
    intro n _
    obtain ⟨seen, w', hr, hseen⟩ := calls_run (g := g) w (retracing n)
      (fun c hc => by rcases mem_retracing hc with rfl | rfl | rfl <;> rfl) (g.image w.store)
    exact ⟨seen, w', hr, hseen.trans (map_retracing _ n)⟩
  retraced := fun _ hn _ _ => h.retraced hn

end Kept

theorem retraces_from_start {s : S} (hs : g.Closed s (g.All s)) {past : List (Call α × Report α)} {w : World S σ}
    (hr : Run g (World.start g s) past w) : Retraces g w := by
  obtain ⟨l, kept, h, -⟩ := (kept_start hs).run hr
  exact h.retraces

/-- After whatever calls, and whatever the caller does between them to its own states, an undo or
    a redo that moves goes to a state that is not equal to the one before, and a walk of undos and
    redos retraces itself. This is so for values on the heap, shared and cyclic, and for flows. -/
theorem undo_and_redo_retrace :
    (∀ (h : Heap) past w, values.Closed h (values.All h) → Run values (World.start values h) past w →
      Retraces values w) ∧
    (∀ (s : FlowStore) past w, Run flows (World.start flows s) past w → Retraces flows w) :=
  ⟨fun _ _ _ hs hr => retraces_from_start hs hr,
    fun _ _ _ hr => retraces_from_start (fun _ hq => ⟨hq, List.forall_mem_nil _⟩) hr⟩

/-- The value true equals 1, and so is no new state; 2 is one. -/
theorem retracing_of_numbers :
    ∃ past w, values.Closed ⟨#[], 1⟩ (values.All ⟨#[], 1⟩) ∧ Run values (World.start values ⟨#[], 1⟩) past w ∧
      past.map (·.1) = [.init ⟨.int 1, []⟩, .push ⟨.bool true, []⟩, .push ⟨.int 2, []⟩] ∧
      w.history.snapshots = [.int 1, .int 2] ∧ w.history.cursor = 1 ∧ Retraces values w := by
  have hinit : ((History.empty : History Value).call valueStorage (.init (.int 1))).run ⟨#[], 1⟩ =
      ((.ok none, ⟨[.int 1], 0⟩), ⟨#[], 1⟩) := by cbv
  have hsame : ((⟨[.int 1], 0⟩ : History Value).call valueStorage (.push (.bool true))).run ⟨#[], 1⟩ =
      ((.ok none, ⟨[.int 1], 0⟩), ⟨#[], 1⟩) := by cbv
  have hnew : ((⟨[.int 1], 0⟩ : History Value).call valueStorage (.push (.int 2))).run ⟨#[], 1⟩ =
      ((.ok none, ⟨[.int 1, .int 2], 1⟩), ⟨#[], 1⟩) := by cbv
  have hclosed : values.Closed ⟨#[], 1⟩ (values.All ⟨#[], 1⟩) := fun q hq => absurd hq (Nat.not_lt_zero q)
  have hscalar : ∀ (mine : Nat → Prop) (c : Call Value), (∀ v ∈ c.state?, v.refs = []) →
      ∀ v ∈ c.state?, values.Rooted mine v := by
    intro mine c hc v hv q hq
    rw [show values.roots v = v.refs from rfl, hc v hv] at hq
    cases hq
  have hrun : Run values (World.start values ⟨#[], 1⟩) _ _ :=
    .step (.call (hscalar _ (.init (.int 1)) (by rintro v ⟨⟩; rfl)) hinit)
      (.step (.call (hscalar _ (.push (.bool true)) (by rintro v ⟨⟩; rfl)) hsame)
        (.step (.call (hscalar _ (.push (.int 2)) (by rintro v ⟨⟩; rfl)) hnew) (.done _)))
  exact ⟨_, _, hclosed, hrun, rfl, rfl, rfl, undo_and_redo_retrace.1 _ _ _ hclosed hrun⟩

end StepFlow.History
