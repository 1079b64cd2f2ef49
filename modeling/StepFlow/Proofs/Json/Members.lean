/-
  StepFlow.Proofs.Json.Members — lists that keep one value for each name.

  The members of an object and the headers of a call are set in one way (`put`): a known name
  keeps its place and takes the new value, a new one goes last.

  Proved, for pairs that are put in turn:
  (1) `names_putAll`: the names stand in the order in which they came first.
  (2) `lookup_putAll`: each has the value that it was given last.
-/

import Mathlib.Data.List.Induction
import StepFlow.Http.Call

namespace StepFlow

section

variable {α : Type}

/-- Give a name a value. -/
def put (pairs : List (String × α)) (name : String) (a : α) : List (String × α) :=
  match pairs with
  | [] => [(name, a)]
  | (n, b) :: rest => if n == name then (n, a) :: rest else (n, b) :: put rest name a

def putAll (pairs : List (String × α)) : List (String × α) := pairs.foldl (fun ps p => put ps p.1 p.2) []

theorem lookup_put (pairs : List (String × α)) (name : String) (a : α) (other : String) :
    (put pairs name a).lookup other = if other == name then some a else pairs.lookup other := by
  induction pairs with
  | nil => rw [put, List.lookup_cons, List.lookup_nil]; cases other == name <;> rfl
  | cons p ps ih =>
    obtain ⟨n, b⟩ := p
    rw [put]
    by_cases hn : n = name
    · subst hn
      rw [if_pos (beq_self_eq_true n), List.lookup_cons, List.lookup_cons]
      cases other == n <;> rfl
    · rw [if_neg (by simpa using hn), List.lookup_cons, List.lookup_cons, ih]
      by_cases ho : other = n
      · subst ho
        simp [hn]
      · rw [beq_eq_false_iff_ne.mpr ho]

theorem names_put (pairs : List (String × α)) (name : String) (a : α) :
    (put pairs name a).map (·.1) =
      if (pairs.map (·.1)).contains name then pairs.map (·.1) else pairs.map (·.1) ++ [name] := by
  induction pairs with
  | nil => rfl
  | cons p ps ih =>
    obtain ⟨n, b⟩ := p
    rw [put]
    by_cases hn : n = name
    · subst hn
      simp
    · have hother : (name == n) = false := beq_eq_false_iff_ne.mpr (Ne.symm hn)
      rw [if_neg (by simpa using hn), List.map_cons, ih, List.map_cons, List.contains_cons, hother, Bool.false_or]
      split <;> rfl

theorem putAll_concat (pairs : List (String × α)) (p : String × α) :
    putAll (pairs ++ [p]) = put (putAll pairs) p.1 p.2 := by
  rw [putAll, List.foldl_append]
  rfl

theorem lookup_putAll (pairs : List (String × α)) (name : String) :
    (putAll pairs).lookup name = pairs.reverse.lookup name := by
  induction pairs using List.reverseRecOn with
  | nil => rfl
  | append_singleton ps p ih =>
    rw [putAll_concat, lookup_put, ih, List.reverse_append, List.reverse_singleton, List.singleton_append,
      List.lookup_cons]
    cases name == p.1 <;> rfl

theorem names_putAll (pairs : List (String × α)) : (putAll pairs).map (·.1) = (pairs.map (·.1)).eraseDups := by
  induction pairs using List.reverseRecOn with
  | nil => rfl
  | append_singleton ps p ih =>
    have hknown : ((ps.map (·.1)).eraseDups).contains p.1 = (ps.map (·.1)).contains p.1 := by
      rw [Bool.eq_iff_iff, List.contains_iff_mem, List.contains_iff_mem, List.mem_eraseDups]
    rw [putAll_concat, names_put, ih, hknown, List.map_append, List.map_singleton, List.eraseDups_append,
      List.removeAll, List.filter_cons, List.elem_eq_contains]
    cases (ps.map (·.1)).contains p.1 with
    | true => simp
    | false => rfl

end

theorem Json.assign_put (members : List (String × Json)) (name : String) (j : Json) :
    Json.assign members name j = put members name j := by
  induction members with
  | nil => rfl
  | cons m ms ih => rw [Json.assign, put, ih]

theorem Json.merged_putAll (pairs : List (String × Json)) : Json.merged pairs = putAll pairs := by
  simp only [Json.merged, putAll, Json.assign_put]

theorem Headers.set_put (headers : Headers) (name value : String) :
    headers.set name value = put headers name value := by
  induction headers with
  | nil => rfl
  | cons h hs ih => rw [Headers.set, put, ih]

theorem Headers.update_putAll {headers : Headers} (h : putAll headers = headers) (others : List (String × String)) :
    headers.update others = putAll (headers ++ others) := by
  unfold putAll at h ⊢
  rw [List.foldl_append, h]
  simp only [Headers.update, Headers.set_put]

end StepFlow
