/-
  StepFlow.History.Basic — undo and redo: a line of snapshots with a cursor at the present one.

  States live in a store and can be changed there by whoever holds them. So every state that
  enters or leaves a history is copied, and no change from outside reaches a snapshot.
  - The cursor is -1 in an empty history, and an index of the snapshots otherwise.
  - A state equal to the present one is not pushed, and what could be redone stays. Any other
    one takes the place of all that could be redone.
-/

import StepFlow.Value.Trouble

namespace StepFlow

/-- Where states live: what it takes to copy and to compare them. -/
structure Storage (S σ : Type) where
  copy : σ → S → σ × S
  equal : S → σ → σ → Except Trouble Bool

structure History (σ : Type) where
  snapshots : List σ
  cursor : Int
  deriving Repr

namespace History

variable {S σ : Type} (storage : Storage S σ)

def empty : History σ := ⟨[], -1⟩

def length (h : History σ) : Nat := h.snapshots.length

def canUndo (h : History σ) : Bool := decide (0 < h.cursor)

def canRedo (h : History σ) : Bool := decide (h.cursor < (h.length : Int) - 1)

/-- The snapshot at the cursor. -/
def present? (h : History σ) : Option σ :=
  if h.cursor < 0 then none else h.snapshots[h.cursor.toNat]?

/-- A copy of a state. -/
def copied (v : σ) : StateM S σ := modifyGet (storage.copy v)

def copiedPresent (h : History σ) : StateM S (Option σ) :=
  match h.present? with
  | some v => some <$> copied storage v
  | none => pure none

/-- Start over from a state. -/
def init (v : σ) : StateM S (History σ) := do
  let c ← copied storage v
  pure ⟨[c], 0⟩

/-- Put a snapshot after the present one, in place of those after it. -/
def append (h : History σ) (c : σ) : History σ :=
  let kept := h.snapshots.take (h.cursor + 1).toNat
  ⟨kept ++ [c], kept.length⟩

/-- Whether a snapshot equals the present one. -/
def isPresent (h : History σ) (store : S) (c : σ) : Except Trouble Bool :=
  match h.present? with
  | some p => storage.equal store p c
  | none => pure false

def push (h : History σ) (v : σ) : StateM S (Except Trouble (History σ)) := do
  let c ← copied storage v
  let store ← get
  pure ((h.isPresent storage store c).map fun same => if same then h else h.append c)

def undo (h : History σ) : StateM S (Option σ × History σ) := do
  if h.canUndo then
    let h := { h with cursor := h.cursor - 1 }
    pure (← h.copiedPresent storage, h)
  else pure (none, h)

def redo (h : History σ) : StateM S (Option σ × History σ) := do
  if h.canRedo then
    let h := { h with cursor := h.cursor + 1 }
    pure (← h.copiedPresent storage, h)
  else pure (none, h)

/-- The present state. -/
def current (h : History σ) : StateM S (Option σ) := h.copiedPresent storage

def clear (_ : History σ) : History σ := empty

end History

end StepFlow
