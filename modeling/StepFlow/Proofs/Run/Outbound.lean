/-
  StepFlow.Proofs.Run.Outbound — the calls of a run, one for each API node that it executes.

  An API node with a configuration calls once each time it is executed, before any answer is
  known, and no other node calls. What a call says is read off the configuration alone
  (`Sends`): neither the variables nor what its texts contain play a part. A call that fails
  ends the run before anything is stored.

  Proved, for every flow, executor and surroundings:
  (1) `callOf_sends`: what the call of a configuration says, header by header.
  (2) `calls_executed`: the calls of a run are those of the nodes that it has executed.
  (3) `failed_call`: a call that fails is the last one, and leaves the memory as it was.
-/

import Mathlib.Data.List.Forall2
import StepFlow.Proofs.Json.Members
import StepFlow.Proofs.Run.Cleanup
import StepFlow.Proofs.Run.Legs

namespace StepFlow

/-- The configuration of the calls that a node makes, if it makes any. -/
def Node.calling? (n : Node) : Option ApiConfig := if n.type = .api then n.data.apiConfig else none

namespace Run

open Script (Memory)

/-! ## What a call says -/

/-- The headers that are given: the default ones, and then those of the configuration. -/
def givenHeaders (c : ApiConfig) : List (String × String) := Http.defaultHeaders ++ c.headers.getD []

/-- The call says what the configuration does. -/
structure Sends (c : ApiConfig) (call : Http.Call) : Prop where
  method : call.method = c.method.text
  url : call.url = c.url
  /-- A header that is given again keeps its place. -/
  names : call.headers.map (·.1) = ((givenHeaders c).map (·.1)).eraseDups
  /-- A header has the value that it was given last. -/
  values : ∀ name, call.headers.lookup name = (givenHeaders c).reverse.lookup name
  payload : call.payload = if c.method = .get then none else c.body.map fun text => text.toUTF8.toList

theorem callOf_sends (c : ApiConfig) : Sends c (callOf c) := by
  have hheaders : (callOf c).headers = putAll (givenHeaders c) := Headers.update_putAll rfl _
  refine ⟨rfl, rfl, ?_, fun name => ?_, ?_⟩
  · rw [hheaders, names_putAll]
  · rw [hheaders, lookup_putAll]
  · unfold Http.Call.payload callOf
    cases c.method <;> rfl

theorem run_calling {n : Node} {m : Memory} {call : Http.Call} (h : (Handler.run n m).reached = .calling call) :
    ∃ c, n.calling? = some c ∧ call = callOf c := by
  have ht := calls_api h
  simp only [Handler.run, ht, Handler.api] at h
  rw [Node.calling?, if_pos ht]
  cases hc : n.data.apiConfig with
  | none =>
    rw [hc] at h
    cases h
  | some c =>
    rw [hc] at h
    cases h
    exact ⟨c, rfl, rfl⟩

theorem visit_call (n : Node) (m : Memory) (a : Http.Answer) : (visit n m a).call = n.calling?.map callOf := by
  have hv := visit_cases n m a
  generalize visit n m a = v at hv
  unfold Node.calling?
  cases hv with
  | idle ht => rcases ht with ht | ht <;> simp [ht]
  | finish ht | blank ht | script ht | scriptFails ht | undecided ht | decided ht | conditionFails ht => simp [ht]
  | unconfigured ht hc | answered ht hc | unanswered ht hc => simp [ht, hc]

section

variable {q : Request} {x : Executor} {s : Surroundings}

/-! ## Courses -/

theorem calls_executed (k : Nat) : q.calls x s k = ((q.executed x s k).filterMap Node.calling?).map callOf := by
  have hlegs : (q.legs x s k).filterMap (·.visit.call) =
      (((q.legs x s k).map (·.node)).filterMap Node.calling?).map callOf := by
    rw [List.filterMap_map, List.map_filterMap]
    exact List.filterMap_congr fun l _ => visit_call l.node l.before l.answer
  have hout : (q.course x s k).1.1.call?.toList =
      ((q.course x s k).1.1.caller?.toList.filterMap Node.calling?).map callOf := by
    cases hk : (q.course x s k).1.1 with
    | ended e => rfl
    | going stage =>
      cases stage with
      | arriving | pausing => rfl
      | calling n call =>
        obtain ⟨c, hc, rfl⟩ := run_calling (course_apt hk n call rfl)
        simp [Progress.call?, Progress.caller?, hc]
  rw [calls_legs, hlegs, hout, Request.executed, List.filterMap_append, List.map_append]

/-- A call that fails ends the run in that turn, and leaves its memory. -/
theorem failed_call {k : Nat} {n : Node} {call : Http.Call} {f : Http.Fault}
    (h : (q.course x s k).1.1 = .going (.calling n call)) (hf : (Http.settle call (s.answer k)).1 = .error f) :
    (∃ r, (q.course x s (k + 1)).1.1 = .ended (.finished r) ∧ r.outcome = .aborted) ∧
      (q.course x s (k + 1)).memory = (q.course x s k).memory := by
  have hresumed := resume_error (n := n) hf (q.course x s k).memory
  have hreached : (Handler.resume n call (s.answer k) (q.course x s k).memory).reached = .failed (.http f) := by
    rw [hresumed]
  obtain ⟨r, hr, houtcome, -⟩ := failed_aborts h rfl hreached
  refine ⟨⟨r, hr, houtcome⟩, ?_⟩
  have hturns := course_turns h
  generalize q.course x s (k + 1) = t at hturns ⊢
  cases hturns with
  | resumes hg =>
    have hmemory : Standing.memory t =
        (Handler.resume n call (s.answer k) (q.course x s k).memory).memory := hg.memory
    rw [hmemory, hresumed]

/-! ## Runs -/

/-- What the calls of a run have to do with the nodes that it executes. -/
structure Corresponds (q : Request) (x : Executor) (s : Surroundings) : Prop where
  /-- All along, the log tells which nodes have been executed. -/
  executed : ∀ k, (q.course x s k).1.2.entries.filter isExecuting = (q.executed x s k).map executingEntry
  /-- The calls made so far are one for each of these that has a configuration, in their order. -/
  sent : ∀ k, List.Forall₂ Sends ((q.executed x s k).filterMap Node.calling?) (q.calls x s k)
  /-- A call that fails was made in the turn before. It is the last one, and ends the run with the
      memory that there was before its node. -/
  failed : ∀ k n call f, (q.course x s k).1.1 = .going (.calling n call) →
    (Http.settle call (s.answer k)).1 = .error f →
      ∃ i r, k = i + 1 ∧ (q.course x s i).1.1 = .going (.arriving n) ∧
        (q.course x s (k + 1)).1.1 = .ended (.finished r) ∧ r.outcome = .aborted ∧
        (q.calls x s k).getLast? = some call ∧ (∀ j, q.calls x s j <+: q.calls x s k) ∧
        (q.course x s (k + 1)).memory = (q.course x s i).memory

/-- The calls of every run correspond to the API nodes that it executes, one to one. -/
theorem calls_correspond_to_executed_nodes (q : Request) (x : Executor) (s : Surroundings) : Corresponds q x s := by
  refine ⟨executing_executed, fun k => ?_, fun k n call f h hf => ?_⟩
  · rw [calls_executed, List.forall₂_map_right_iff]
    exact List.forall₂_same.mpr fun c _ => callOf_sends c
  · obtain ⟨⟨r, hr, houtcome⟩, hmemory⟩ := failed_call h hf
    obtain ⟨i, hi, harrives, hbefore⟩ := course_calling h
    have hlast : (q.calls x s k).getLast? = some call := by
      rw [calls_legs, h]
      exact List.getLast?_concat
    exact ⟨i, r, hi, harrives, hr, houtcome, hlast, calls_over hr, hmemory.trans hbefore⟩

/-- A node that calls twice; the second call is not answered. -/
theorem calls_of_a_loop :
    let config : ApiConfig := ⟨"http://x", .post, some [("X", "1"), ("Content-Type", "text/plain")], some "é"⟩
    let start : Node := ⟨"s", .start, .origin, ⟨"Start", none, none, none, none⟩⟩
    let call : Node := ⟨"a", .api, .origin, ⟨"Call", none, none, none, some config⟩⟩
    let flow : Flow := ⟨"f", "Loop", none, [start, call], [⟨"c", "s", "a", none⟩, ⟨"d", "a", "a", none⟩]⟩
    let q : Request := ⟨.none, "t", flow, []⟩
    let x : Executor := .create ⟨.scalar (.int 0), .scalar (.int 10)⟩ ⟨0, []⟩ .empty
    let s : Surroundings :=
      ⟨fun k => if k = 2 then .response 200 [49] else .failure (.network "ConnectTimeout" "slow"), fun _ => .ok ()⟩
    Corresponds q x s ∧ (q.executed x s 5).map (·.id) = ["s", "a", "a"] ∧
      (q.calls x s 5).map (·.headers) = [[("Content-Type", "text/plain"), ("X", "1")],
        [("Content-Type", "text/plain"), ("X", "1")]] ∧
      (q.calls x s 5).map (·.payload) = [some [195, 169], some [195, 169]] ∧
      (q.course x s 5).memory = (q.course x s 3).memory := by
  intro config start call flow q x s
  have hcalls := calls_correspond_to_executed_nodes q x s
  have hout : (q.course x s 4).1.1 = .going (.calling call (callOf config)) := rfl
  have hslow : (Http.settle (callOf config) (s.answer 4)).1 = .error (.network "ConnectTimeout" "slow") := rfl
  obtain ⟨i, r, hi, -, -, -, -, -, hmemory⟩ := hcalls.failed 4 call (callOf config) _ hout hslow
  cases hi
  exact ⟨hcalls, by decide +kernel, by decide +kernel, by decide +kernel, hmemory⟩

end

end Run

end StepFlow
