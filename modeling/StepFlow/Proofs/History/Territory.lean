/-
  StepFlow.Proofs.History.Territory — stores of cells, and what a state in one is apart from it.

  A store has cells that point at cells, and a state points at some of them (`Layout`). A part
  of the store is closed if it points nowhere else. A ground of a storage (`Ground`) says what
  a state is as a value that cannot change (its image), and that
  - the image depends on nothing outside a closed part that holds the state;
  - a copy has the image of what was copied, stands in new cells, and leaves the others alone;
  - states in parts without a common cell are equal exactly if their images are.

  Proved: values on the heap have one, with pictures for images (`values`), and so have flows
  in a list, each in a cell of its own (`flows`).
-/

import StepFlow.History.Stores
import StepFlow.Proofs.Value.Renaming

namespace StepFlow.History

/-- How the states of a store stand in its cells. -/
structure Layout (S σ C : Type) where
  size : S → Nat
  cell : S → Nat → C
  points : C → List Nat
  roots : σ → List Nat

namespace Layout

variable {S σ C : Type} (g : Layout S σ C)

/-- The cells of `P` are cells of the store, and point at cells of `P` only. -/
def Closed (s : S) (P : Nat → Prop) : Prop := ∀ q, P q → q < g.size s ∧ ∀ r ∈ g.points (g.cell s q), P r

/-- The state points at cells of `P` only. -/
def Rooted (P : Nat → Prop) (v : σ) : Prop := ∀ q ∈ g.roots v, P q

def All (s : S) (q : Nat) : Prop := q < g.size s

/-- The cells of a store that an earlier one has not. -/
def Fresh (s s' : S) (q : Nat) : Prop := g.size s ≤ q ∧ q < g.size s'

/-- The cells that the state points at, and those that they do. -/
inductive Reached (s : S) (v : σ) : Nat → Prop
  | root {q : Nat} : q ∈ g.roots v → Reached s v q
  | point {q r : Nat} : Reached s v q → r ∈ g.points (g.cell s q) → Reached s v r

/-- The later store has all the cells of the earlier one as they were. -/
def Grown (s s' : S) : Prop := g.size s ≤ g.size s' ∧ ∀ q < g.size s, g.cell s' q = g.cell s q

variable {g} {s s' : S} {P Q : Nat → Prop} {v : σ}

theorem Grown.refl (s : S) : g.Grown s s := ⟨Nat.le_refl _, fun _ _ => rfl⟩

theorem Closed.grown (hP : g.Closed s P) (hs : g.Grown s s') : g.Closed s' P := by
  intro q hq
  obtain ⟨hlt, hr⟩ := hP q hq
  rw [hs.2 q hlt]
  exact ⟨Nat.lt_of_lt_of_le hlt hs.1, hr⟩

theorem Closed.or (hP : g.Closed s P) (hQ : g.Closed s Q) : g.Closed s fun q => P q ∨ Q q := by
  rintro q (hq | hq)
  · exact ⟨(hP q hq).1, fun r hr => Or.inl ((hP q hq).2 r hr)⟩
  · exact ⟨(hQ q hq).1, fun r hr => Or.inr ((hQ q hq).2 r hr)⟩

theorem Closed.not_fresh (hP : g.Closed s P) {q : Nat} (hq : P q) : ¬ g.Fresh s s' q :=
  fun hf => Nat.not_lt.mpr hf.1 (hP q hq).1

theorem Reached.within (hP : g.Closed s P) (hv : g.Rooted P v) {q : Nat} (h : g.Reached s v q) : P q := by
  induction h with
  | root hq => exact hv _ hq
  | point _ hr ih => exact (hP _ ih).2 _ hr

theorem reached_closed (hP : g.Closed s P) (hv : g.Rooted P v) : g.Closed s (g.Reached s v) :=
  fun q hq => ⟨(hP q (hq.within hP hv)).1, fun _ => .point hq⟩

end Layout

/-- What the states of a storage are, apart from where they stand. -/
structure Ground {S σ : Type} (storage : Storage S σ) (C α : Type) extends Layout S σ C where
  image : S → σ → α
  equal : α → α → Except Trouble Bool
  image_frame {s s' : S} {P : Nat → Prop} {v : σ} : toLayout.Closed s P → toLayout.Rooted P v →
    (∀ q, P q → cell s' q = cell s q) → image s' v = image s v
  copy_grows (s : S) (v : σ) : toLayout.Grown s (storage.copy v s).2
  copy_closed {s : S} {P : Nat → Prop} {v : σ} : toLayout.Closed s P → toLayout.Rooted P v →
    toLayout.Closed (storage.copy v s).2 (toLayout.Fresh s (storage.copy v s).2)
  copy_rooted {s : S} {P : Nat → Prop} {v : σ} : toLayout.Closed s P → toLayout.Rooted P v →
    toLayout.Rooted (toLayout.Fresh s (storage.copy v s).2) (storage.copy v s).1
  copy_image {s : S} {P : Nat → Prop} {v : σ} : toLayout.Closed s P → toLayout.Rooted P v →
    image (storage.copy v s).2 (storage.copy v s).1 = image s v
  equal_images {s : S} {P Q : Nat → Prop} {a b : σ} : toLayout.Closed s P → toLayout.Closed s Q →
    (∀ q, P q → ¬ Q q) → toLayout.Rooted P a → toLayout.Rooted Q b →
      storage.equal s a b = equal (image s a) (image s b)

namespace Ground

variable {S σ C α : Type} {storage : Storage S σ} {g : Ground storage C α} {s s' : S} {P : Nat → Prop} {v : σ}

theorem image_grown (hP : g.Closed s P) (hv : g.Rooted P v) (hs : g.Grown s s') : g.image s' v = g.image s v :=
  g.image_frame hP hv fun q hq => hs.2 q (hP q hq).1

end Ground

/-! ## Values -/

def heapLayout : Layout Heap Value Cell := ⟨fun h => h.cells.size, Heap.cell, Cell.refs, Value.refs⟩

/-- Values on the heap: each is its picture. -/
def values : Ground valueStorage Cell Picture where
  toLayout := heapLayout
  image := Heap.picture
  equal := Picture.equal
  image_frame := by
    intro h k P v hP hv hcell
    have hid := (renames_id (fun r hr => (hP r hr).2) hcell).picture hv
    rwa [Value.move_id] at hid
  copy_grows := fun h v => ⟨Nat.le.intro (h.deepCopy_size v).symm, fun q hq => h.deepCopy_old v hq⟩
  copy_closed := fun _ _ q hq => ⟨hq.2, Heap.deepCopy_closed _ _ hq.1 hq.2⟩
  copy_rooted := fun _ _ q hq => Heap.deepCopy_refs _ _ hq
  copy_image := fun _ _ => Heap.picture_deepCopy _ _
  equal_images := fun hP hQ hPQ ha hb =>
    equal_pictures (fun r hr => (hP r hr).2) (fun r hr => (hQ r hr).2) hPQ ha hb

/-! ## Flows -/

def flowLayout : Layout FlowStore FlowRef (Option Flow) := ⟨List.length, fun s r => s[r]?, fun _ => [], fun r => [r]⟩

theorem flowLayout_found {s : FlowStore} {P : Nat → Prop} {r : FlowRef} (hP : flowLayout.Closed s P)
    (hr : flowLayout.Rooted P r) : r < s.length :=
  (hP r (hr r (List.mem_singleton_self r))).1

theorem flowStorage_copy {s : FlowStore} {r : FlowRef} (hr : r < s.length) :
    flowStorage.copy r s = (s.length, s ++ [s[r]]) := by
  simp only [flowStorage, List.getElem?_eq_getElem hr]
  rfl

/-- Flows in a list: each is what stands at its number. -/
def flows : Ground flowStorage (Option Flow) (Option Flow) where
  toLayout := flowLayout
  image := fun s r => s[r]?
  equal := fun
    | some f, some g => .ok (f.same g)
    | _, _ => .ok false
  image_frame := by
    intro s t P r _ hr hcell
    exact hcell r (hr r (List.mem_singleton_self r))
  copy_grows := by
    intro s r
    by_cases hr : r < s.length
    · rw [flowStorage_copy hr]
      exact ⟨by simp [flowLayout], fun q hq => List.getElem?_append_left hq⟩
    · have hnone : s[r]? = none := List.getElem?_eq_none (Nat.not_lt.mp hr)
      simp only [flowStorage, hnone]
      exact .refl s
  copy_closed := fun _ _ q hq => ⟨hq.2, List.forall_mem_nil _⟩
  copy_rooted := by
    intro s P r hP hr q hq
    rw [List.mem_singleton.mp hq, flowStorage_copy (flowLayout_found hP hr)]
    exact ⟨Nat.le_refl _, by simp [flowLayout]⟩
  copy_image := by
    intro s P r hP hr
    have hlt := flowLayout_found hP hr
    rw [flowStorage_copy hlt]
    simp [List.getElem?_eq_getElem hlt]
  equal_images := fun _ _ _ _ _ => rfl

end StepFlow.History
