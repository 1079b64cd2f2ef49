/-
  StepFlow.Proofs.Json.Shown — documents in the heap.

  A value shows a document (`Heap.Shows`) if it is that scalar, or a container whose parts show
  the parts of the document in their order. The containers that it takes are those from a
  bound on, so that what happens below it plays no part.

  Proved:
  (1) `Shows.again`: what is shown is shown by any heap with the same containers from the bound on.
  (2) `ofJson_shows`: a document that is made into a value is shown by it, in new containers.
  (3) `ShowsMembers.assign`: an entry that is assigned in an object is one of its document.
-/

import StepFlow.Json.Basic
import StepFlow.Proofs.Script.Sparing

namespace StepFlow

namespace Heap

mutual

theorem ofJson_keeps (h : Heap) (j : Json) : h.Keeps (h.ofJson j).2 := by
  cases j with
  | null | bool | int | float | str => exact .refl h
  | arr items => exact (ofItems_keeps h items).trans (.alloc _ _)
  | obj members => exact (ofMembers_keeps h members).trans (.alloc _ _)

theorem ofItems_keeps (h : Heap) (js : List Json) : h.Keeps (h.ofItems js).2 := by
  cases js with
  | nil => exact .refl h
  | cons j js => exact (ofJson_keeps h j).trans (ofItems_keeps _ js)

theorem ofMembers_keeps (h : Heap) (ms : List (String × Json)) : h.Keeps (h.ofMembers ms).2 := by
  cases ms with
  | nil => exact .refl h
  | cons m ms => exact (ofJson_keeps h m.2).trans (ofMembers_keeps _ ms)

end

mutual

/-- In this heap, the value shows the document by containers from the bound on. -/
inductive Shows (h : Heap) (bound : Nat) : Value → Json → Prop
  | null : Shows h bound .null .null
  | bool (b : Bool) : Shows h bound (.bool b) (.bool b)
  | int (n : Int) : Shows h bound (.int n) (.int n)
  | float (x : Float) : Shows h bound (.scalar (if x.isNaN then .nan documentNan else .float x)) (.float x)
  | str (s : String) : Shows h bound (.str s) (.str s)
  | arr {r : Ref} {vs : List Value} {js : List Json} : bound ≤ r → h.cells[r]? = some (.list vs) →
      ShowsItems h bound vs js → Shows h bound (.ref r) (.arr js)
  | obj {r : Ref} {es : List (Scalar × Value)} {ms : List (String × Json)} : bound ≤ r →
      h.cells[r]? = some (.object es) → ShowsMembers h bound es ms → Shows h bound (.ref r) (.obj ms)

inductive ShowsItems (h : Heap) (bound : Nat) : List Value → List Json → Prop
  | nil : ShowsItems h bound [] []
  | cons {v : Value} {j : Json} {vs : List Value} {js : List Json} : Shows h bound v j →
      ShowsItems h bound vs js → ShowsItems h bound (v :: vs) (j :: js)

inductive ShowsMembers (h : Heap) (bound : Nat) : List (Scalar × Value) → List (String × Json) → Prop
  | nil : ShowsMembers h bound [] []
  | cons {name : String} {v : Value} {j : Json} {es : List (Scalar × Value)} {ms : List (String × Json)} :
      Shows h bound v j → ShowsMembers h bound es ms →
        ShowsMembers h bound ((.str name, v) :: es) ((name, j) :: ms)

end

section

variable {h k : Heap} {bound low : Nat}

mutual

/-- What is shown is shown by any heap that has these containers. -/
theorem Shows.again (hl : low ≤ bound) (hk : ∀ r c, bound ≤ r → h.cells[r]? = some c → k.cells[r]? = some c)
    {v : Value} {j : Json} (hs : h.Shows bound v j) : k.Shows low v j := by
  cases hs with
  | null => exact .null
  | bool b => exact .bool b
  | int n => exact .int n
  | float x => exact .float x
  | str s => exact .str s
  | arr hr hc hi => exact .arr (Nat.le_trans hl hr) (hk _ _ hr hc) (hi.again hl hk)
  | obj hr hc hm => exact .obj (Nat.le_trans hl hr) (hk _ _ hr hc) (hm.again hl hk)

theorem ShowsItems.again (hl : low ≤ bound) (hk : ∀ r c, bound ≤ r → h.cells[r]? = some c → k.cells[r]? = some c)
    {vs : List Value} {js : List Json} (hs : h.ShowsItems bound vs js) : k.ShowsItems low vs js := by
  cases hs with
  | nil => exact .nil
  | cons hv hvs => exact .cons (hv.again hl hk) (hvs.again hl hk)

theorem ShowsMembers.again (hl : low ≤ bound) (hk : ∀ r c, bound ≤ r → h.cells[r]? = some c → k.cells[r]? = some c)
    {es : List (Scalar × Value)} {ms : List (String × Json)} (hs : h.ShowsMembers bound es ms) :
    k.ShowsMembers low es ms := by
  cases hs with
  | nil => exact .nil
  | cons hv hes => exact .cons (hv.again hl hk) (hes.again hl hk)

end

theorem Keeps.cells (hk : h.Keeps k) : ∀ r c, bound ≤ r → h.cells[r]? = some c → k.cells[r]? = some c := by
  intro r c _ hc
  rw [hk r (Array.getElem?_eq_some_iff.mp hc).1, hc]

theorem shows_alloc_items {vs : List Value} {js : List Json} (hl : low ≤ h.cells.size) (hs : h.ShowsItems low vs js) :
    (h.alloc (.list vs)).2.Shows low (h.alloc (.list vs)).1 (.arr js) :=
  .arr hl Array.getElem?_push_size (hs.again (Nat.le_refl low) (Keeps.alloc h _).cells)

theorem shows_alloc_members {es : List (Scalar × Value)} {ms : List (String × Json)} (hl : low ≤ h.cells.size)
    (hs : h.ShowsMembers low es ms) : (h.alloc (.object es)).2.Shows low (h.alloc (.object es)).1 (.obj ms) :=
  .obj hl Array.getElem?_push_size (hs.again (Nat.le_refl low) (Keeps.alloc h _).cells)

mutual

/-- A document that is made into a value is shown by it, in new containers. -/
theorem ofJson_shows (h : Heap) (j : Json) : (h.ofJson j).2.Shows h.cells.size (h.ofJson j).1 j := by
  cases j with
  | null => exact .null
  | bool b => exact .bool b
  | int n => exact .int n
  | float x => exact .float x
  | str s => exact .str s
  | arr items => exact shows_alloc_items (ofItems_keeps h items).size_le (ofItems_shows h items)
  | obj members => exact shows_alloc_members (ofMembers_keeps h members).size_le (ofMembers_shows h members)

theorem ofItems_shows (h : Heap) (js : List Json) : (h.ofItems js).2.ShowsItems h.cells.size (h.ofItems js).1 js := by
  cases js with
  | nil => exact .nil
  | cons j js =>
    have hlow := (ofJson_keeps h j).size_le
    have hitem := (ofJson_shows h j).again (Nat.le_refl _) (ofItems_keeps (h.ofJson j).2 js).cells
    exact .cons hitem ((ofItems_shows (h.ofJson j).2 js).again hlow fun _ _ _ hc => hc)

theorem ofMembers_shows (h : Heap) (ms : List (String × Json)) :
    (h.ofMembers ms).2.ShowsMembers h.cells.size (h.ofMembers ms).1 ms := by
  cases ms with
  | nil => exact .nil
  | cons m ms =>
    have hlow := (ofJson_keeps h m.2).size_le
    have hmember := (ofJson_shows h m.2).again (Nat.le_refl _) (ofMembers_keeps (h.ofJson m.2).2 ms).cells
    exact .cons hmember ((ofMembers_shows (h.ofJson m.2).2 ms).again hlow fun _ _ _ hc => hc)

end

/-- An entry that is assigned in an object is one of its document. -/
theorem ShowsMembers.assign {es : List (Scalar × Value)} {ms : List (String × Json)} {v : Value} {j : Json}
    (hs : h.ShowsMembers bound es ms) (hv : h.Shows bound v j) (name : String) :
    h.ShowsMembers bound (assignKey es (.str name) v) (Json.assign ms name j) := by
  cases hs with
  | nil => exact .cons hv .nil
  | @cons other w k es ms hw hes =>
    have hsame : (Scalar.str other).same (.str name) = (other == name) := rfl
    rw [assignKey, Json.assign, hsame]
    split
    · exact .cons hv hes
    · exact .cons hw (hes.assign hv name)

end

end Heap

end StepFlow
