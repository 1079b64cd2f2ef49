/-
  StepFlow.Proofs.Value.Renaming — what containers are called does not matter.

  A part of a heap that points nowhere else may stand in another heap under other names
  (`Renames`). Two values of it are equal there exactly if they are here
  (`Renames.equalWithin`), and the search finds the same containers, renamed
  (`Renames.reachable`): what room it is given beyond what it needs plays no part.

  So a value has a picture (`Heap.picture`): its containers numbered as the search finds
  them, with what is shared and cyclic in it, and nothing of the heap it is in.
  - The picture is the same under other names (`Renames.picture`), so a deep copy has that of
    what was copied (`deepCopy_renames`).
  - Values that share nothing are equal exactly if their pictures are, laid side by side
    (`equal_pictures`).
-/

import Mathlib.Algebra.BigOperators.Fin
import Mathlib.Algebra.Order.BigOperators.Group.Finset
import StepFlow.Value.Copy
import StepFlow.Value.Equal

namespace StepFlow

/-! ## Names -/

def Value.refs : Value → List Ref
  | .ref r => [r]
  | .scalar _ => []

/-- The value under other names. -/
def Value.move (ρ : Ref → Ref) : Value → Value
  | .scalar s => .scalar s
  | .ref r => .ref (ρ r)

def Cell.move (ρ : Ref → Ref) (c : Cell) : Cell := c.mapValues (Value.move ρ)

theorem Value.refs_move (ρ : Ref → Ref) (v : Value) : (v.move ρ).refs = v.refs.map ρ := by cases v <;> rfl

theorem Value.move_move (ρ σ : Ref → Ref) (v : Value) : (v.move ρ).move σ = v.move (σ ∘ ρ) := by cases v <;> rfl

theorem Value.move_id (v : Value) : v.move id = v := by cases v <;> rfl

theorem Value.move_congr {ρ σ : Ref → Ref} {v : Value} (h : ∀ q ∈ v.refs, ρ q = σ q) : v.move ρ = v.move σ := by
  cases v with
  | scalar s => rfl
  | ref r => exact congrArg Value.ref (h r (List.mem_singleton_self r))

namespace Cell

variable {c : Cell} {ρ σ : Ref → Ref}

theorem mem_refs {q : Ref} : q ∈ c.refs ↔ ∃ v ∈ c.values, q ∈ v.refs := by
  unfold refs
  rw [List.mem_filterMap]
  constructor
  · rintro ⟨v, hv, hq⟩
    cases v with
    | scalar s => cases hq
    | ref r => cases hq; exact ⟨_, hv, List.mem_singleton_self _⟩
  · rintro ⟨v, hv, hq⟩
    cases v with
    | scalar s => cases hq
    | ref _ => exact ⟨_, hv, congrArg some (List.mem_singleton.mp hq).symm⟩

theorem move_congr (h : ∀ q ∈ c.refs, ρ q = σ q) : c.move ρ = c.move σ := by
  have hv : ∀ v ∈ c.values, v.move ρ = v.move σ := fun v hv =>
    Value.move_congr fun q hq => h q (mem_refs.mpr ⟨v, hv, hq⟩)
  cases c with
  | list xs => exact congrArg Cell.list (List.map_congr_left hv)
  | object es =>
    refine congrArg Cell.object (List.map_congr_left fun e he => ?_)
    rw [hv e.2 (List.mem_map_of_mem he)]

theorem move_move (ρ σ : Ref → Ref) (c : Cell) : (c.move ρ).move σ = c.move (σ ∘ ρ) := by
  cases c with
  | list xs => simp [move, mapValues, Value.move_move]
  | object es => simp [move, mapValues, Value.move_move]

theorem move_id (c : Cell) : c.move id = c := by
  have hid : Value.move id = id := funext Value.move_id
  cases c with
  | list xs => simp [move, mapValues, hid]
  | object es => simp [move, mapValues, hid]

theorem refs_move (ρ : Ref → Ref) (c : Cell) : (c.move ρ).refs = c.refs.map ρ := by
  have hvalues : (c.move ρ).values = c.values.map (Value.move ρ) := by
    cases c with
    | list xs => rfl
    | object es => simp [move, mapValues, values]
  unfold refs
  rw [hvalues, List.filterMap_map, List.map_filterMap]
  congr 1
  funext v
  cases v <;> rfl

end Cell

/-- The cells of `D` in one heap are, under other names, cells of another. They point at cells of
    `D` only. -/
structure Renames (ρ : Ref → Ref) (D : Ref → Prop) (h k : Heap) : Prop where
  inj : ∀ r s, D r → D s → ρ r = ρ s → r = s
  cell : ∀ r, D r → k.cell (ρ r) = (h.cell r).move ρ
  closed : ∀ r, D r → ∀ q ∈ (h.cell r).refs, D q

variable {ρ σ : Ref → Ref} {D A B : Ref → Prop} {h k : Heap}

/-- A part of a heap that is unchanged in another one has its own names there. -/
theorem renames_id (hD : ∀ r, D r → ∀ q ∈ (h.cell r).refs, D q) (hcell : ∀ r, D r → k.cell r = h.cell r) :
    Renames id D h k where
  inj := fun _ _ _ _ heq => heq
  cell := fun r hr => by rw [id, hcell r hr, Cell.move_id]
  closed := hD

/-! ## Equality -/

namespace Heap

theorem allSame_map {same same' : Value → Value → Except Trouble Bool} {f : Value → Value} (xs : List Value) :
    ∀ ys, (∀ x ∈ xs, ∀ y ∈ ys, same' (f x) (f y) = same x y) →
      allSame same' (xs.map f) (ys.map f) = allSame same xs ys := by
  induction xs with
  | nil => intro ys _; cases ys <;> rfl
  | cons x xs ih =>
    intro ys hs
    cases ys with
    | nil => rfl
    | cons y ys =>
      have hxy := hs x List.mem_cons_self y List.mem_cons_self
      have hrest := ih ys fun a ha b hb => hs a (List.mem_cons_of_mem x ha) b (List.mem_cons_of_mem y hb)
      simp only [List.map_cons, allSame, hxy, hrest]

theorem lookupKey_map (f : Value → Value) (es : List (Scalar × Value)) (key : Scalar) :
    lookupKey (es.map fun e => (e.1, f e.2)) key = (lookupKey es key).map f := by
  unfold lookupKey
  rw [List.find?_map, Option.map_map, Option.map_map]
  rfl

theorem lookupKey_mem {es : List (Scalar × Value)} {key : Scalar} {v : Value} (hl : lookupKey es key = some v) :
    v ∈ es.map (·.2) := by
  unfold lookupKey at hl
  obtain ⟨e, he, rfl⟩ := Option.map_eq_some_iff.mp hl
  exact List.mem_map_of_mem (List.mem_of_find?_eq_some he)

theorem allEntriesSame_map {same same' : Value → Value → Except Trouble Bool} {f : Value → Value}
    (others : List (Scalar × Value)) (es : List (Scalar × Value))
    (hs : ∀ x ∈ others.map (·.2), ∀ y ∈ es.map (·.2), same' (f x) (f y) = same x y) :
    allEntriesSame same' (others.map fun e => (e.1, f e.2)) (es.map fun e => (e.1, f e.2)) =
      allEntriesSame same others es := by
  induction es with
  | nil => rfl
  | cons e es ih =>
    obtain ⟨key, v⟩ := e
    have hrest := ih fun x hx y hy => hs x hx y (List.mem_cons_of_mem _ hy)
    simp only [List.map_cons, allEntriesSame, lookupKey_map, hrest]
    cases hl : lookupKey others key with
    | none => rfl
    | some w => simp only [Option.map_some, hs w (lookupKey_mem hl) v List.mem_cons_self]

end Heap

theorem Renames.identical (hr : Renames ρ D h k) {a b : Value} (ha : ∀ q ∈ a.refs, D q) (hb : ∀ q ∈ b.refs, D q) :
    (a.move ρ).identical (b.move ρ) = a.identical b := by
  cases a with
  | scalar s => cases b <;> rfl
  | ref r =>
    cases b with
    | scalar t => rfl
    | ref s =>
      simp only [Value.move, Value.identical]
      rw [Bool.eq_iff_iff, beq_iff_eq, beq_iff_eq]
      exact ⟨hr.inj r s (ha r (List.mem_singleton_self r)) (hb s (List.mem_singleton_self s)), congrArg ρ⟩

theorem Renames.equalWithin (hr : Renames ρ D h k) (depth : Nat) {a b : Value} (ha : ∀ q ∈ a.refs, D q)
    (hb : ∀ q ∈ b.refs, D q) : k.equalWithin depth (a.move ρ) (b.move ρ) = h.equalWithin depth a b := by
  induction depth generalizing a b with
  | zero => cases a <;> cases b <;> rfl
  | succ depth ih =>
    cases a with
    | scalar s => cases b <;> rfl
    | ref r =>
      cases b with
      | scalar t => rfl
      | ref s =>
        have hdr : D r := ha r (List.mem_singleton_self r)
        have hds : D s := hb s (List.mem_singleton_self s)
        have hsame : ∀ r s, D r → D s → ∀ x ∈ (h.cell r).values, ∀ y ∈ (h.cell s).values,
            (if (x.move ρ).identical (y.move ρ) then pure true
              else k.equalWithin depth (x.move ρ) (y.move ρ) : Except Trouble Bool) =
            if x.identical y then pure true else h.equalWithin depth x y := by
          intro r s hdr hds x hx y hy
          have hdx : ∀ q ∈ x.refs, D q := fun q hq => hr.closed r hdr q (Cell.mem_refs.mpr ⟨x, hx, hq⟩)
          have hdy : ∀ q ∈ y.refs, D q := fun q hq => hr.closed s hds q (Cell.mem_refs.mpr ⟨y, hy, hq⟩)
          rw [hr.identical hdx hdy, ih hdx hdy]
        have hlists := hsame r s hdr hds
        have hobjects := hsame s r hds hdr
        simp only [Value.move, Heap.equalWithin, hr.cell r hdr, hr.cell s hds]
        cases hcr : h.cell r with
        | list xs =>
          cases hcs : h.cell s with
          | list ys =>
            simp only [hcr, hcs, Cell.values] at hlists
            simp only [Cell.move, Cell.mapValues, List.length_map]
            rw [Heap.allSame_map xs ys hlists]
          | object fs => rfl
        | object es =>
          cases hcs : h.cell s with
          | list ys => rfl
          | object fs =>
            simp only [hcr, hcs, Cell.values] at hobjects
            simp only [Cell.move, Cell.mapValues, List.length_map]
            rw [Heap.allEntriesSame_map fs es hobjects]

/-! ## The search -/

namespace Heap

open Finset in
/-- The references held by the containers not found yet. -/
def owed (h : Heap) (found : List Ref) : Nat := ∑ r ∈ range h.cells.size with r ∉ found, (h.cell r).refs.length

theorem cell_outside {h : Heap} {r : Ref} (hr : ¬ r < h.cells.size) : h.cell r = .list [] := by
  unfold cell
  exact dif_neg hr

theorem owed_found {h : Heap} {found : List Ref} {r : Ref} (hr : r ∉ found) :
    h.owed (found ++ [r]) + (h.cell r).refs.length = h.owed found := by
  have hset : (Finset.range h.cells.size).filter (· ∉ found ++ [r]) =
      ((Finset.range h.cells.size).filter (· ∉ found)).erase r := by
    ext q
    simp only [Finset.mem_filter, Finset.mem_erase, List.mem_append, List.mem_singleton, not_or]
    tauto
  unfold owed
  rw [hset]
  by_cases hin : r < h.cells.size
  · exact Finset.sum_erase_add _ _ (by simp [hin, hr])
  · have hzero : (h.cell r).refs.length = 0 := by rw [cell_outside hin]; rfl
    rw [Finset.sum_erase (f := fun q => (h.cell q).refs.length) _ hzero, hzero, Nat.add_zero]

theorem owed_nil (h : Heap) : h.owed [] = h.edges := by
  have hall : (Finset.range h.cells.size).filter (· ∉ ([] : List Ref)) = Finset.range h.cells.size :=
    Finset.filter_true_of_mem fun _ _ => List.not_mem_nil
  unfold owed edges
  rw [hall, Finset.sum_range, ← Fin.sum_univ_getElem]
  refine Fintype.sum_equiv (finCongr (by simp)) _ _ fun i => ?_
  simp [cell]

/-- The room is enough to visit all there is to visit. -/
def Enough (h : Heap) (room : Nat) (found todo : List Ref) : Prop := todo.length + h.owed found ≤ room

theorem Enough.again {h : Heap} {room : Nat} {found todo : List Ref} {r : Ref}
    (he : h.Enough (room + 1) found (r :: todo)) : h.Enough room found todo := by
  simp only [Enough, List.length_cons] at *
  omega

theorem Enough.visit {h : Heap} {room : Nat} {found todo : List Ref} {r : Ref} (hr : r ∉ found)
    (he : h.Enough (room + 1) found (r :: todo)) : h.Enough room (found ++ [r]) ((h.cell r).refs ++ todo) := by
  have := h.owed_found hr
  simp only [Enough, List.length_cons, List.length_append] at *
  omega

theorem enough_start (h : Heap) (roots : List Ref) : h.Enough (roots.length + h.edges) [] roots := by
  rw [Enough, owed_nil]

theorem reachFrom_known {h : Heap} {room : Nat} {found todo : List Ref} {r : Ref} (hr : r ∈ found) :
    h.reachFrom (room + 1) found (r :: todo) = h.reachFrom room found todo := by
  rw [reachFrom, if_pos (List.contains_iff_mem.mpr hr)]

theorem reachFrom_new {h : Heap} {room : Nat} {found todo : List Ref} {r : Ref} (hr : r ∉ found) :
    h.reachFrom (room + 1) found (r :: todo) = h.reachFrom room (found ++ [r]) ((h.cell r).refs ++ todo) := by
  rw [reachFrom, if_neg (mt List.contains_iff_mem.mp hr)]

theorem reachFrom_done (h : Heap) (room : Nat) (found : List Ref) : h.reachFrom room found [] = found := by
  cases room <;> rfl

/-- More room than enough finds nothing more. -/
theorem reachFrom_succ {h : Heap} (room : Nat) {found todo : List Ref} (he : h.Enough room found todo) :
    h.reachFrom (room + 1) found todo = h.reachFrom room found todo := by
  induction room generalizing found todo with
  | zero =>
    have htodo : todo = [] := List.length_eq_zero_iff.mp (by unfold Enough at he; omega)
    rw [htodo, reachFrom_done, reachFrom_done]
  | succ room ih =>
    cases todo with
    | nil => rw [reachFrom_done, reachFrom_done]
    | cons r todo =>
      by_cases hr : r ∈ found
      · rw [reachFrom_known hr, reachFrom_known hr, ih he.again]
      · rw [reachFrom_new hr, reachFrom_new hr, ih (he.visit hr)]

theorem reachFrom_room {h : Heap} {room room' : Nat} {found todo : List Ref} (he : h.Enough room found todo)
    (hle : room ≤ room') : h.reachFrom room' found todo = h.reachFrom room found todo := by
  induction room', hle using Nat.le_induction with
  | base => rfl
  | succ n hn ih =>
    have hen : h.Enough n found todo := Nat.le_trans he hn
    rw [reachFrom_succ n hen, ih]

/-- The search ends with containers that hold only containers found. -/
theorem reachFrom_closed {h : Heap} (room : Nat) {found todo : List Ref} (he : h.Enough room found todo)
    (hf : ∀ r ∈ found, ∀ q ∈ (h.cell r).refs, q ∈ found ∨ q ∈ todo) :
    (∀ r, r ∈ found ∨ r ∈ todo → r ∈ h.reachFrom room found todo) ∧
      ∀ r ∈ h.reachFrom room found todo, ∀ q ∈ (h.cell r).refs, q ∈ h.reachFrom room found todo := by
  induction room generalizing found todo with
  | zero =>
    have htodo : todo = [] := List.length_eq_zero_iff.mp (by unfold Enough at he; omega)
    subst htodo
    rw [reachFrom_done]
    simpa using hf
  | succ room ih =>
    cases todo with
    | nil =>
      rw [reachFrom_done]
      simpa using hf
    | cons r todo =>
      by_cases hr : r ∈ found
      · rw [reachFrom_known hr]
        obtain ⟨hin, hclosed⟩ := ih he.again fun s hs q hq => by
          rcases hf s hs q hq with h1 | h1
          · exact Or.inl h1
          · rcases List.mem_cons.mp h1 with rfl | h1
            · exact Or.inl hr
            · exact Or.inr h1
        refine ⟨fun s hs => hin s ?_, hclosed⟩
        rcases hs with hs | hs
        · exact Or.inl hs
        · rcases List.mem_cons.mp hs with rfl | hs
          · exact Or.inl hr
          · exact Or.inr hs
      · rw [reachFrom_new hr]
        obtain ⟨hin, hclosed⟩ := ih (he.visit hr) fun s hs q hq => by
          rcases List.mem_append.mp hs with hs | hs
          · rcases hf s hs q hq with h1 | h1
            · exact Or.inl (List.mem_append_left _ h1)
            · rcases List.mem_cons.mp h1 with rfl | h1
              · exact Or.inl (List.mem_append_right _ (List.mem_singleton_self _))
              · exact Or.inr (List.mem_append_right _ h1)
          · rw [List.mem_singleton.mp hs] at hq
            exact Or.inr (List.mem_append_left _ hq)
        refine ⟨fun s hs => hin s ?_, hclosed⟩
        rcases hs with hs | hs
        · exact Or.inl (List.mem_append_left _ hs)
        · rcases List.mem_cons.mp hs with rfl | hs
          · exact Or.inl (List.mem_append_right _ (List.mem_singleton_self _))
          · exact Or.inr (List.mem_append_right _ hs)

/-- The search stays in a part of the heap that points nowhere else. -/
theorem reachFrom_within {h : Heap} (hD : ∀ r, D r → ∀ q ∈ (h.cell r).refs, D q) (room : Nat)
    {found todo : List Ref} (hf : ∀ r ∈ found, D r) (ht : ∀ r ∈ todo, D r) :
    ∀ r ∈ h.reachFrom room found todo, D r := by
  induction room generalizing found todo with
  | zero => exact hf
  | succ room ih =>
    cases todo with
    | nil => exact hf
    | cons r todo =>
      have hdr := ht r List.mem_cons_self
      have hdt := fun q hq => ht q (List.mem_cons_of_mem r hq)
      by_cases hr : r ∈ found
      · rw [reachFrom_known hr]
        exact ih hf hdt
      · rw [reachFrom_new hr]
        exact ih (List.forall_mem_append.mpr ⟨hf, List.forall_mem_singleton.mpr hdr⟩)
          (List.forall_mem_append.mpr ⟨hD r hdr, hdt⟩)

theorem mem_reachable {h : Heap} {roots : List Ref} {r : Ref} (hr : r ∈ roots) : r ∈ h.reachable roots :=
  (reachFrom_closed _ (h.enough_start roots) (by simp)).1 r (Or.inr hr)

theorem reachable_closed {h : Heap} {roots : List Ref} :
    ∀ r ∈ h.reachable roots, ∀ q ∈ (h.cell r).refs, q ∈ h.reachable roots :=
  (reachFrom_closed _ (h.enough_start roots) (by simp)).2

theorem reachable_within {h : Heap} (hD : ∀ r, D r → ∀ q ∈ (h.cell r).refs, D q) {roots : List Ref}
    (ht : ∀ r ∈ roots, D r) : ∀ r ∈ h.reachable roots, D r :=
  reachFrom_within hD _ (by simp) ht

end Heap

theorem Renames.mem_map (hr : Renames ρ D h k) {found : List Ref} (hf : ∀ r ∈ found, D r) {r : Ref} (hd : D r) :
    ρ r ∈ found.map ρ ↔ r ∈ found := by
  rw [List.mem_map]
  constructor
  · rintro ⟨s, hs, heq⟩
    rwa [← hr.inj s r (hf s hs) hd heq]
  · exact fun h => ⟨r, h, rfl⟩

theorem Renames.reachFrom (hr : Renames ρ D h k) (room : Nat) {found todo : List Ref} (hf : ∀ r ∈ found, D r)
    (ht : ∀ r ∈ todo, D r) :
    k.reachFrom room (found.map ρ) (todo.map ρ) = (h.reachFrom room found todo).map ρ := by
  induction room generalizing found todo with
  | zero => rfl
  | succ room ih =>
    cases todo with
    | nil => rfl
    | cons r todo =>
      have hdr := ht r List.mem_cons_self
      have hdt := fun q hq => ht q (List.mem_cons_of_mem r hq)
      rw [List.map_cons]
      by_cases hin : r ∈ found
      · rw [Heap.reachFrom_known hin, Heap.reachFrom_known ((hr.mem_map hf hdr).mpr hin), ih hf hdt]
      · have hnext := ih (List.forall_mem_append.mpr ⟨hf, List.forall_mem_singleton.mpr hdr⟩)
          (List.forall_mem_append.mpr ⟨hr.closed r hdr, hdt⟩)
        rw [Heap.reachFrom_new hin, Heap.reachFrom_new (mt (hr.mem_map hf hdr).mp hin), hr.cell r hdr,
          Cell.refs_move, ← hnext, List.map_append, List.map_append]
        rfl

theorem Renames.reachable (hr : Renames ρ D h k) {roots : List Ref} (ht : ∀ r ∈ roots, D r) :
    k.reachable (roots.map ρ) = (h.reachable roots).map ρ := by
  have hk := k.enough_start (roots.map ρ)
  have hh := h.enough_start roots
  unfold Heap.reachable
  -- the two searches have different room, so both are given all of it
  rw [← Heap.reachFrom_room hk (Nat.le_add_right _ (roots.length + h.edges)),
    ← Heap.reachFrom_room hh (Nat.le_add_left _ ((roots.map ρ).length + k.edges))]
  exact hr.reachFrom _ (List.forall_mem_nil D) ht

/-! ## Pictures -/

/-- A value and the containers that it reaches, which are called by their places. -/
structure Picture where
  root : Value
  cells : List Cell

/-- Where a container is among those found, when they begin at `base`. -/
def place (found : List Ref) (base : Nat) (r : Ref) : Nat :=
  match found.idxOf? r with
  | some i => base + i
  | none => r

theorem renamed_eq_move (found : List Ref) (base : Nat) : Heap.renamed found base = Value.move (place found base) := by
  funext v
  cases v with
  | scalar s => rfl
  | ref r =>
    simp only [Heap.renamed, Value.move, place]
    cases found.idxOf? r <;> rfl

theorem place_found {found : List Ref} {r : Ref} (hr : r ∈ found) :
    ∃ i, ∃ hi : i < found.length, found[i] = r ∧ ∀ base, place found base r = base + i := by
  cases hx : found.idxOf? r with
  | none => exact absurd hr (List.idxOf?_eq_none_iff.mp hx)
  | some i =>
    obtain ⟨hi, hri, -⟩ := List.findIdx?_eq_some_iff_getElem.mp hx
    exact ⟨i, hi, by simpa using hri, fun base => by rw [place, hx]⟩

/-- A value's picture: the search has found its containers, and they are called by their places. -/
def Heap.picture (h : Heap) (v : Value) : Picture :=
  let found := h.reachable v.refs
  ⟨v.move (place found 0), found.map fun r => (h.cell r).move (place found 0)⟩

theorem Renames.place (hr : Renames ρ D h k) {found : List Ref} (hf : ∀ r ∈ found, D r) {r : Ref} (hd : D r)
    (hin : r ∈ found) (base : Nat) : place (found.map ρ) base (ρ r) = StepFlow.place found base r := by
  have hidx : (found.map ρ).idxOf? (ρ r) = found.idxOf? r := by
    clear hin
    induction found with
    | nil => rfl
    | cons s found ih =>
      have hs := hf s List.mem_cons_self
      have hbeq : (ρ s == ρ r) = (s == r) := by
        rw [Bool.eq_iff_iff, beq_iff_eq, beq_iff_eq]
        exact ⟨hr.inj s r hs hd, congrArg ρ⟩
      rw [List.map_cons, List.idxOf?_cons, List.idxOf?_cons, hbeq, ih fun q hq => hf q (List.mem_cons_of_mem s hq)]
  unfold StepFlow.place
  rw [hidx]
  cases hx : found.idxOf? r with
  | none => exact absurd hin (List.idxOf?_eq_none_iff.mp hx)
  | some i => rfl

theorem Renames.picture (hr : Renames ρ D h k) {v : Value} (hv : ∀ q ∈ v.refs, D q) :
    k.picture (v.move ρ) = h.picture v := by
  have hfound := hr.reachable hv
  have hin := Heap.reachable_within hr.closed hv
  have hplace : ∀ q ∈ h.reachable v.refs,
      StepFlow.place ((h.reachable v.refs).map ρ) 0 (ρ q) = StepFlow.place (h.reachable v.refs) 0 q :=
    fun q hq => hr.place hin (hin q hq) hq 0
  simp only [Heap.picture, Value.refs_move, hfound, Value.move_move, List.map_map, Picture.mk.injEq]
  constructor
  · exact Value.move_congr fun q hq => hplace q (Heap.mem_reachable hq)
  · refine List.map_congr_left fun r hr' => ?_
    simp only [Function.comp_apply]
    rw [hr.cell r (hin r hr'), Cell.move_move]
    exact Cell.move_congr fun q hq => hplace q (Heap.reachable_closed r hr' q hq)

/-! ## Copies -/

/-- Containers found that stand in a row elsewhere, called by their places there. -/
theorem renames_place {found : List Ref} {base : Nat} (hc : ∀ r ∈ found, ∀ q ∈ (h.cell r).refs, q ∈ found)
    (hcell : ∀ i (hi : i < found.length), k.cell (base + i) = (h.cell found[i]).move (place found base)) :
    Renames (place found base) (· ∈ found) h k where
  inj := by
    intro r s hr hs heq
    obtain ⟨i, hi, rfl, hpi⟩ := place_found hr
    obtain ⟨j, hj, rfl, hpj⟩ := place_found hs
    rw [hpi, hpj] at heq
    obtain rfl : i = j := Nat.add_left_cancel heq
    rfl
  cell := by
    intro r hr
    obtain ⟨i, hi, rfl, hpi⟩ := place_found hr
    rw [hpi, hcell i hi]
  closed := hc

namespace Heap

variable (h : Heap) (v : Value)

theorem reachable_nil : h.reachable [] = [] := reachFrom_done h _ []

theorem deepCopy_fst : (h.deepCopy v).1 = v.move (place (h.reachable v.refs) h.cells.size) := by
  cases v with
  | scalar s => rfl
  | ref r =>
    simp only [deepCopy, renamed_eq_move]
    rfl

theorem deepCopy_cells : (h.deepCopy v).2.cells = h.cells ++
    ((h.reachable v.refs).map fun r => (h.cell r).move (place (h.reachable v.refs) h.cells.size)).toArray := by
  cases v with
  | scalar s =>
    simp only [deepCopy, Value.refs, reachable_nil]
    rfl
  | ref r =>
    simp only [deepCopy, renamed_eq_move]
    rfl

theorem deepCopy_size : (h.deepCopy v).2.cells.size = h.cells.size + (h.reachable v.refs).length := by
  simp [deepCopy_cells]

theorem deepCopy_old {r : Ref} (hr : r < h.cells.size) : (h.deepCopy v).2.cell r = h.cell r := by
  simp only [cell, Array.getD_eq_getD_getElem?, deepCopy_cells]
  rw [Array.getElem?_append_left hr]

theorem deepCopy_new {i : Nat} (hi : i < (h.reachable v.refs).length) :
    (h.deepCopy v).2.cell (h.cells.size + i) =
      (h.cell (h.reachable v.refs)[i]).move (place (h.reachable v.refs) h.cells.size) := by
  simp only [cell, Array.getD_eq_getD_getElem?, deepCopy_cells]
  rw [Array.getElem?_append_right (Nat.le_add_right _ _)]
  simp [hi]

theorem deepCopy_renames :
    Renames (place (h.reachable v.refs) h.cells.size) (· ∈ h.reachable v.refs) h (h.deepCopy v).2 :=
  renames_place reachable_closed fun _ hi => h.deepCopy_new v hi

/-- A deep copy has the picture of what was copied. -/
theorem picture_deepCopy : (h.deepCopy v).2.picture (h.deepCopy v).1 = h.picture v := by
  rw [deepCopy_fst]
  exact (h.deepCopy_renames v).picture fun _ => mem_reachable

theorem deepCopy_refs {q : Nat} (hq : q ∈ (h.deepCopy v).1.refs) :
    h.cells.size ≤ q ∧ q < (h.deepCopy v).2.cells.size := by
  rw [deepCopy_fst, Value.refs_move] at hq
  obtain ⟨r, hr, rfl⟩ := List.mem_map.mp hq
  obtain ⟨i, hi, -, hp⟩ := place_found (mem_reachable hr)
  rw [hp, deepCopy_size]
  omega

/-- The containers of a copy hold only containers of the copy. -/
theorem deepCopy_closed {r : Nat} (hr : h.cells.size ≤ r) (hr' : r < (h.deepCopy v).2.cells.size) :
    ∀ q : Nat, q ∈ ((h.deepCopy v).2.cell r).refs → h.cells.size ≤ q ∧ q < (h.deepCopy v).2.cells.size := by
  obtain ⟨i, rfl⟩ := Nat.exists_eq_add_of_le hr
  have hi : i < (h.reachable v.refs).length := by
    rw [deepCopy_size] at hr'
    omega
  rw [deepCopy_new h v hi, Cell.refs_move]
  intro q hq
  obtain ⟨s, hs, rfl⟩ := List.mem_map.mp hq
  obtain ⟨j, hj, -, hp⟩ := place_found (reachable_closed _ (List.getElem_mem hi) s hs)
  rw [hp, deepCopy_size]
  omega

end Heap

/-! ## Equality by pictures -/

theorem Renames.union (hρ : Renames ρ A h k) (hσ : Renames σ B h k) [DecidablePred A] (hAB : ∀ q, A q → ¬ B q)
    (himage : ∀ r s, A r → B s → ρ r ≠ σ s) :
    Renames (fun q => if A q then ρ q else σ q) (fun q => A q ∨ B q) h k where
  inj := by
    intro r s hr hs heq
    rcases hr with hr | hr <;> rcases hs with hs | hs
    · rw [if_pos hr, if_pos hs] at heq
      exact hρ.inj r s hr hs heq
    · rw [if_pos hr, if_neg fun h => hAB s h hs] at heq
      exact absurd heq (himage r s hr hs)
    · rw [if_neg fun h => hAB r h hr, if_pos hs] at heq
      exact absurd heq.symm (himage s r hs hr)
    · rw [if_neg fun h => hAB r h hr, if_neg fun h => hAB s h hs] at heq
      exact hσ.inj r s hr hs heq
  cell := by
    intro r hr
    rcases hr with hr | hr
    · rw [if_pos hr, hρ.cell r hr]
      exact Cell.move_congr fun q hq => (if_pos (hρ.closed r hr q hq)).symm
    · rw [if_neg fun h => hAB r h hr, hσ.cell r hr]
      exact Cell.move_congr fun q hq => (if_neg fun h => hAB q h (hσ.closed r hr q hq)).symm
  closed := by
    intro r hr q hq
    rcases hr with hr | hr
    · exact Or.inl (hρ.closed r hr q hq)
    · exact Or.inr (hσ.closed r hr q hq)

namespace Picture

/-- Two pictures side by side. -/
def beside (p q : Picture) : Heap := ⟨(p.cells ++ q.cells.map (Cell.move (p.cells.length + ·))).toArray, 0⟩

/-- Equality, as `==` has it. -/
def equal (p q : Picture) : Except Trouble Bool :=
  (p.beside q).equal p.root (q.root.move (p.cells.length + ·))

end Picture

theorem place_shift {found : List Ref} {q : Ref} (hq : q ∈ found) (n : Nat) :
    n + place found 0 q = place found n q := by
  obtain ⟨i, -, -, hp⟩ := place_found hq
  rw [hp, hp, Nat.zero_add]

theorem beside_left (a b : Value) : Renames (place (h.reachable a.refs) 0) (· ∈ h.reachable a.refs) h
    ((h.picture a).beside (h.picture b)) := by
  refine renames_place Heap.reachable_closed fun i hi => ?_
  simp only [Heap.cell, Picture.beside, Heap.picture, Array.getD_eq_getD_getElem?, List.getElem?_toArray]
  rw [List.getElem?_append_left (by simpa using hi)]
  simp [hi]

theorem beside_right (a b : Value) : Renames (place (h.reachable b.refs) (h.reachable a.refs).length)
    (· ∈ h.reachable b.refs) h ((h.picture a).beside (h.picture b)) := by
  refine renames_place Heap.reachable_closed fun i hi => ?_
  have hmove : ((h.cell (h.reachable b.refs)[i]).move (place (h.reachable b.refs) 0)).move
      ((h.reachable a.refs).length + ·) =
        (h.cell (h.reachable b.refs)[i]).move (place (h.reachable b.refs) (h.reachable a.refs).length) := by
    rw [Cell.move_move]
    exact Cell.move_congr fun q hq => place_shift (Heap.reachable_closed _ (List.getElem_mem hi) q hq) _
  rw [← hmove]
  simp only [Heap.cell, Picture.beside, Heap.picture, Array.getD_eq_getD_getElem?, List.getElem?_toArray]
  rw [List.getElem?_append_right (by simp)]
  simp [hi]

open Classical in
/-- Values that share nothing are equal exactly if their pictures are. -/
theorem equal_pictures (hA : ∀ r, A r → ∀ q ∈ (h.cell r).refs, A q) (hB : ∀ r, B r → ∀ q ∈ (h.cell r).refs, B q)
    (hAB : ∀ q, A q → ¬ B q) {a b : Value} (ha : ∀ q ∈ a.refs, A q) (hb : ∀ q ∈ b.refs, B q) :
    h.equal a b = (h.picture a).equal (h.picture b) := by
  have hapart : ∀ q, q ∈ h.reachable a.refs → ¬ q ∈ h.reachable b.refs := fun q hq hq' =>
    hAB q (Heap.reachable_within hA ha q hq) (Heap.reachable_within hB hb q hq')
  have hboth := (beside_left (h := h) a b).union (beside_right a b) hapart fun r s hr hs => by
    obtain ⟨i, hi, -, hp⟩ := place_found hr
    obtain ⟨j, hj, -, hp'⟩ := place_found hs
    intro heq
    have heq : 0 + i = (h.reachable a.refs).length + j := by rw [← hp, ← hp']; exact heq
    omega
  have hequal := hboth.equalWithin depthLimit (fun q hq => Or.inl (Heap.mem_reachable hq))
    (fun q hq => Or.inr (Heap.mem_reachable hq) : ∀ q ∈ b.refs, _)
  have hroot : b.move (place (h.reachable b.refs) (h.reachable a.refs).length) =
      (b.move (place (h.reachable b.refs) 0)).move ((h.reachable a.refs).length + ·) := by
    rw [Value.move_move]
    exact Value.move_congr fun q hq => (place_shift (Heap.mem_reachable hq) _).symm
  rw [Value.move_congr fun q hq => if_pos (Heap.mem_reachable hq),
    Value.move_congr fun q hq => if_neg fun h' => hapart q h' (Heap.mem_reachable hq), hroot] at hequal
  simp only [Heap.equal, Picture.equal, Heap.picture, List.length_map] at hequal ⊢
  exact hequal.symm

end StepFlow
