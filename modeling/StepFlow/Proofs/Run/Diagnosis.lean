/-
  StepFlow.Proofs.Run.Diagnosis — what the diagnosis of a flow says about its runs.

  The diagnosis looks at node ids as a set; a run looks for the first node of an id. Nodes may
  share their ids, there may be several start nodes, and connections may lead nowhere. What is
  said is of nodes as they stand in the flow, not of their ids.

  Proved, for every flow, whatever its runs meet and however they are set:
  (1) `hasErrors_diagnose`: there is no error exactly if there is one start node.
  (2) `unreachable_avoided`: a run is never at a node that is reported as not reachable.
  (3) `Turns.finished`: a turn that finishes a run does so by an ending of the node that the
      run is at; so `stopped_without_output`: that node has no output if no connection is left.
-/

import StepFlow.Proofs.Run.Course
import StepFlow.Proofs.Run.Itinerary

namespace StepFlow

/-! ## Diagnostics -/

namespace Flow

def missingStart : Diagnostic := ⟨"Flow must have a Start node.", .error, none⟩

def unreachable (n : Node) : Diagnostic :=
  ⟨"Node \"" ++ n.data.label ++ "\" is not reachable.", .warning, some n.id⟩

def noOutput (n : Node) : Diagnostic := ⟨"Node \"" ++ n.data.label ++ "\" has no output.", .warning, some n.id⟩

variable {f : Flow} {n : Node}

theorem unreachable_ne_noOutput (n : Node) : unreachable n ≠ noOutput n := by
  intro h
  have hmessage : "Node \"" ++ n.data.label ++ "\" is not reachable." =
      "Node \"" ++ n.data.label ++ "\" has no output." := congrArg Diagnostic.message h
  have hsuffix := congrArg String.toList hmessage
  rw [String.toList_append (s := "Node \"" ++ n.data.label) (t := "\" is not reachable."),
    String.toList_append (s := "Node \"" ++ n.data.label) (t := "\" has no output.")] at hsuffix
  have hlists := List.append_cancel_left hsuffix
  revert hlists
  decide

theorem unreachable_mem (h : unreachable n ∈ f.nodeDiagnostics n) : n.type ≠ .start ∧ f.isTarget n.id = false := by
  rcases List.mem_append.mp h with h | h
  · by_cases hc : (n.type != .start && !f.isTarget n.id) = true
    · obtain ⟨ht, hi⟩ := Bool.and_eq_true_iff.mp hc
      exact ⟨bne_iff_ne.mp ht, by simpa using hi⟩
    · rw [if_neg hc] at h
      cases h
  · split at h
    · exact absurd (List.mem_singleton.mp h) (unreachable_ne_noOutput n)
    · cases h

theorem noOutput_mem (ht : n.type ≠ .finish) (hs : f.isSource n.id = false) : noOutput n ∈ f.nodeDiagnostics n := by
  refine List.mem_append_right _ ?_
  rw [if_pos (Bool.and_eq_true_iff.mpr ⟨bne_iff_ne.mpr ht, by rw [hs]; rfl⟩)]
  exact List.mem_singleton.mpr rfl

theorem nodeDiagnostics_diagnose {d : Diagnostic} (hn : n ∈ f.nodes) (hd : d ∈ f.nodeDiagnostics n) : d ∈ f.diagnose :=
  List.mem_append_right _ (List.mem_flatMap.mpr ⟨n, hn, hd⟩)

theorem missingStart_mem (h : f.startNode? = none) : missingStart ∈ f.diagnose := by
  have hcount : f.startCount = 0 := by
    refine List.countP_eq_zero.mpr fun m hm => ?_
    exact List.find?_eq_none.mp h m hm
  refine List.mem_append_left _ (List.mem_append_left _ ?_)
  rw [startDiagnostics, if_pos hcount]
  exact List.mem_singleton.mpr rfl

end Flow

/-! ## Errors -/

theorem hasErrors_append (ds es : List Diagnostic) : hasErrors (ds ++ es) = (hasErrors ds || hasErrors es) :=
  List.any_append

theorem hasErrors_warnings {ds : List Diagnostic} (h : ∀ d ∈ ds, d.severity = .warning) : hasErrors ds = false := by
  refine List.any_eq_false.mpr fun d hd => ?_
  rw [h d hd]
  decide

theorem nodeDiagnostics_warning (f : Flow) (n : Node) : ∀ d ∈ f.nodeDiagnostics n, d.severity = .warning := by
  intro d hd
  unfold Flow.nodeDiagnostics at hd
  rcases List.mem_append.mp hd with h | h
  · split at h
    · rw [List.mem_singleton.mp h]
    · cases h
  · split at h
    · rw [List.mem_singleton.mp h]
    · cases h

theorem endDiagnostics_warning (f : Flow) : ∀ d ∈ f.endDiagnostics, d.severity = .warning := by
  intro d hd
  unfold Flow.endDiagnostics at hd
  split at hd
  · cases hd
  · rw [List.mem_singleton.mp hd]

/-- Only the start nodes make errors. -/
theorem hasErrors_diagnose (f : Flow) : hasErrors f.diagnose = false ↔ f.nodes.countP (·.type == .start) = 1 := by
  have hnodes : hasErrors (f.nodes.flatMap f.nodeDiagnostics) = false := by
    refine hasErrors_warnings fun d hd => ?_
    obtain ⟨n, -, hn⟩ := List.mem_flatMap.mp hd
    exact nodeDiagnostics_warning f n d hn
  have hstart : hasErrors f.diagnose = hasErrors f.startDiagnostics := by
    rw [Flow.diagnose, hasErrors_append, hasErrors_append, hasErrors_warnings (endDiagnostics_warning f), hnodes,
      Bool.or_false, Bool.or_false]
  have hcount : f.nodes.countP (·.type == .start) = f.startCount := rfl
  rw [hstart, hcount]
  unfold Flow.startDiagnostics
  by_cases h0 : f.startCount = 0
  · rw [if_pos h0, h0]
    decide
  · by_cases h1 : 1 < f.startCount
    · rw [if_neg h0, if_pos h1]
      constructor
      · intro h
        cases h
      · intro h
        omega
    · rw [if_neg h0, if_neg h1]
      exact ⟨fun _ => by omega, fun _ => rfl⟩

namespace Run

open Script (Memory)

/-! ## Endings of a node -/

/-- How a run may end that is at the node. -/
inductive EndsAt (flow : Flow) (n : Node) : Ending → Prop
  | barred (f : NodeFault) : EndsAt flow n (.barred n f)
  | failed (f : NodeFault) : EndsAt flow n (.failed n f)
  | left {e : Ending} : LeftBy flow n e → EndsAt flow n e

theorem wayFrom_ends {flow : Flow} {n : Node} {r : Except NodeFault Transition} {e : Ending}
    (h : wayFrom flow n r = .ends e) (ht : ∀ t, r = .ok t → t.Fits n) : EndsAt flow n e := by
  cases r with
  | error f =>
    cases h
    exact .failed f
  | ok t => exact .left (wayOut_ends h (ht t rfl))

theorem run_fits {n : Node} {m : Memory} (h : ∀ c, (Handler.run n m).reached ≠ .calling c) {t : Transition}
    (ht : resumedResult (Handler.run n m).reached = .ok t) : t.Fits n := by
  have hv := visit_silent (.failure (.flow "")) h
  have hr : (visit n m (.failure (.flow ""))).result = .ok t := by rw [hv, ht]
  exact visit_fits hr

/-- Only the handler of an API node is resumed, and it never ends the run. -/
theorem resume_fits {n : Node} (hn : n.type = .api) {c : Http.Call} {a : Http.Answer} {m : Memory} {t : Transition}
    (ht : resumedResult (Handler.resume n c a m).reached = .ok t) : t.Fits n := by
  unfold Handler.resume at ht
  split at ht
  · cases ht
    exact ⟨by rw [hn]; rfl, by intro hp; cases hp⟩
  · cases ht

theorem Goes.finished {w : Walk} {x : Executor} {r : Result} {v : Walk} {y : Executor} {way : Way}
    (h : Goes w x ((.ended (.finished r), v), y) way) : ∃ e, way = .ends e ∧ r = e.result w := by
  cases h with
  | ends hc => exact ⟨_, rfl, rfl⟩

/-- A turn that finishes a run ends it at its node. -/
theorem Turns.finished {w v : Walk} {x y : Executor} {stage : Stage} {event : Event} {r : Result}
    (h : Turns w x stage event ((.ended (.finished r), v), y))
    (hc : ∀ n c, stage = .calling n c → n.type = .api) :
    ∃ e u, r = Ending.result e u ∧ EndsAt w.flow stage.node e := by
  cases h with
  | barred hb hg =>
    obtain ⟨e, he, hr⟩ := hg.finished
    cases he
    exact ⟨_, _, hr, .barred _⟩
  | visits hb hcalls hg =>
    obtain ⟨e, he, hr⟩ := hg.finished
    exact ⟨e, _, hr, wayFrom_ends he fun t ht => run_fits hcalls ht⟩
  | @resumes n c a r hg =>
    obtain ⟨e, he, hr⟩ := hg.finished
    exact ⟨e, _, hr, wayFrom_ends he fun t ht => resume_fits (hc n c rfl) ht⟩

/-! ## Messages of endings -/

def stoppedMessage : String := "Flow stopped (no more connections)"

def strandedMessage : String := "No Start node found in flow"

theorem stopped_ending {e : Ending} (h : e.entry.message = stoppedMessage) : ∃ n, e = .unconnected n none := by
  have hbegins := ending_begins e
  rw [h] at hbegins
  cases e with
  | failed | barred | dangling => cases hbegins
  | done n =>
    have hdone : "Flow finished successfully" = stoppedMessage := h
    exact absurd hdone (by decide)
  | unconnected n port =>
    cases port with
    | none => exact ⟨n, rfl⟩
    | some port => cases hbegins

theorem ending_not_stranded (e : Ending) : e.entry.message ≠ strandedMessage := by
  intro h
  have hbegins := ending_begins e
  rw [h] at hbegins
  cases e with
  | done | failed | barred | dangling => cases hbegins
  | unconnected n port =>
    cases port with
    | none => cases hbegins
    | some port =>
      -- both messages begin with the same word
      have hfourth : ("No connection for port \"" ++ port ++ "\"").toList[3]? = some 'c' := by
        rw [String.toList_append, String.toList_append]
        rfl
      have hmessage : "No connection for port \"" ++ port ++ "\"" = strandedMessage := h
      rw [hmessage] at hfourth
      exact absurd hfourth (by decide)

/-! ## Runs -/

def Result.lastMessage? (r : Result) : Option String := r.entries.getLast?.map (·.message)

theorem lastMessage_ending (e : Ending) (w : Walk) : (e.result w).lastMessage? = some e.entry.message := by
  rw [Result.lastMessage?, Ending.result, List.getLast?_concat]
  rfl

section

variable {q : Request} {x : Executor} {s : Surroundings} {k : Nat} {r : Result}

/-- A run is never at a node that is reported as not reachable. -/
theorem unreachable_avoided {n : Node} {stage : Stage} (hd : Flow.unreachable n ∈ q.flow.nodeDiagnostics n)
    (h : (q.course x s k).1.1 = .going stage) : stage.node ≠ n := by
  rintro rfl
  obtain ⟨htype, htarget⟩ := Flow.unreachable_mem hd
  obtain ⟨-, hstart | hreached⟩ := (course_sound q x s k).place stage h
  · exact htype hstart
  · rw [htarget] at hreached
    cases hreached

theorem finished_ending {stage : Stage} (h : (q.course x s k).1.1 = .going stage)
    (hr : (q.course x s (k + 1)).1.1 = .ended (.finished r)) :
    ∃ e u, r = Ending.result e u ∧ EndsAt q.flow stage.node e := by
  have hsound := course_sound q x s k
  have hturns := course_turns h
  rcases hm : q.course x s (k + 1) with ⟨⟨pr, v⟩, y⟩
  rw [hm] at hr hturns
  cases hr
  obtain ⟨e, u, hresult, hends⟩ := hturns.finished fun n c hc => hsound.calling n c (by rw [h, hc])
  rw [hsound.flow] at hends
  exact ⟨e, u, hresult, hends⟩

/-- The node at which no connection is left has no output. -/
theorem stopped_without_output {stage : Stage} (h : (q.course x s k).1.1 = .going stage)
    (hr : (q.course x s (k + 1)).1.1 = .ended (.finished r)) (hm : r.lastMessage? = some stoppedMessage) :
    r.entries.getLast? = some (entryOf stage.node stoppedMessage .warning) ∧
      Flow.noOutput stage.node ∈ q.flow.nodeDiagnostics stage.node := by
  obtain ⟨e, u, rfl, hends⟩ := finished_ending h hr
  rw [lastMessage_ending] at hm
  obtain ⟨n, rfl⟩ := stopped_ending (Option.some.inj hm)
  obtain - | - | hleft := hends
  cases hleft with
  | unconnected htype _ hnext =>
    refine ⟨List.getLast?_concat, Flow.noOutput_mem htype ?_⟩
    refine List.any_eq_false.mpr fun c hc hsource => ?_
    have hnot := List.find?_eq_none.mp hnext c hc
    rw [hsource] at hnot
    exact hnot rfl

/-- Only a run that finds no start node ends at once. -/
theorem begun_finished (h : (q.begun x).1.1 = .ended (.finished r)) :
    q.flow.startNode? = none ∧ r.lastMessage? = some strandedMessage := by
  rcases begun_cases q x with ⟨hn, y, hy, -⟩ | ⟨n, y, -, hy, -⟩
  · rw [hy] at h
    cases h
    exact ⟨hn, rfl⟩
  · rw [hy] at h
    cases h

theorem stranded_without_start (h : (q.course x s k).1.1 = .ended (.finished r))
    (hm : r.lastMessage? = some strandedMessage) : q.flow.startNode? = none := by
  rcases course_last h with hbegun | ⟨j, -, stage, hgoing, hended⟩
  · exact (begun_finished hbegun).1
  · obtain ⟨e, u, rfl, -⟩ := finished_ending hgoing hended
    rw [lastMessage_ending] at hm
    exact absurd (Option.some.inj hm) (ending_not_stranded e)

end

/-- What the diagnosis of a flow says about a run. -/
structure Foretold (q : Request) (x : Executor) (s : Surroundings) : Prop where
  errors : hasErrors q.flow.diagnose = false ↔ q.flow.nodes.countP (·.type == .start) = 1
  stranded : ∀ k r, (q.course x s k).1.1 = .ended (.finished r) → r.lastMessage? = some strandedMessage →
    Flow.missingStart ∈ q.flow.diagnose
  /-- So a run without errors has a start node. -/
  passed : hasErrors q.flow.diagnose = false →
    ∀ k r, (q.course x s k).1.1 = .ended (.finished r) → r.lastMessage? ≠ some strandedMessage
  /-- What is reported as not reachable is no node that the run is at, even if a node of the same id is. -/
  avoided : ∀ n ∈ q.flow.nodes, Flow.unreachable n ∈ q.flow.nodeDiagnostics n →
    ∀ k stage, (q.course x s k).1.1 = .going stage → stage.node ≠ n
  stopped : ∀ k stage r, (q.course x s k).1.1 = .going stage →
    (q.course x s (k + 1)).1.1 = .ended (.finished r) → r.lastMessage? = some stoppedMessage →
      r.entries.getLast? = some (entryOf stage.node stoppedMessage .warning) ∧ stage.node ∈ q.flow.nodes ∧
        Flow.noOutput stage.node ∈ q.flow.nodeDiagnostics stage.node
  /-- So a run whose nodes all have an output never stops like that. -/
  connected : (∀ n, Flow.noOutput n ∉ q.flow.diagnose) →
    ∀ k r, (q.course x s k).1.1 = .ended (.finished r) → r.lastMessage? ≠ some stoppedMessage

theorem diagnosis_foretells (q : Request) (x : Executor) (s : Surroundings) : Foretold q x s := by
  have hstranded : ∀ k r, (q.course x s k).1.1 = .ended (.finished r) → r.lastMessage? = some strandedMessage →
      Flow.missingStart ∈ q.flow.diagnose := fun k r h hm => Flow.missingStart_mem (stranded_without_start h hm)
  have hstopped : ∀ k stage r, (q.course x s k).1.1 = .going stage →
      (q.course x s (k + 1)).1.1 = .ended (.finished r) → r.lastMessage? = some stoppedMessage →
        r.entries.getLast? = some (entryOf stage.node stoppedMessage .warning) ∧ stage.node ∈ q.flow.nodes ∧
          Flow.noOutput stage.node ∈ q.flow.nodeDiagnostics stage.node := by
    intro k stage r h hr hm
    obtain ⟨hlast, hd⟩ := stopped_without_output h hr hm
    exact ⟨hlast, ((course_sound q x s k).place stage h).1, hd⟩
  refine ⟨hasErrors_diagnose q.flow, hstranded, ?_, ?_, hstopped, ?_⟩
  · intro herrors k r h hm
    have herror : hasErrors q.flow.diagnose = true :=
      List.any_eq_true.mpr ⟨Flow.missingStart, hstranded k r h hm, rfl⟩
    rw [herrors] at herror
    cases herror
  · intro n _ hd k stage h
    exact unreachable_avoided hd h
  · intro hnone k r h hm
    rcases course_last h with hbegun | ⟨j, -, stage, hgoing, hended⟩
    · have hlast := (begun_finished hbegun).2
      rw [hm] at hlast
      exact absurd hlast (by decide)
    · obtain ⟨-, hmem, hd⟩ := hstopped j stage r hgoing hended hm
      exact hnone stage.node (Flow.nodeDiagnostics_diagnose hmem hd)

/-- A start node without a connection, and another node of its id. -/
theorem diagnosis_of_a_lone_start :
    let start : Node := ⟨"s", .start, .origin, ⟨"Start", none, none, none, none⟩⟩
    let other : Node := ⟨"s", .task, .origin, ⟨"Other", none, none, none, none⟩⟩
    let q : Request := ⟨.none, "t", ⟨"f", "Lone", none, [start, other], []⟩, []⟩
    let x : Executor := .create ⟨.scalar (.int 0), .scalar (.int 10)⟩ ⟨0, []⟩ .empty
    let s : Surroundings := ⟨fun _ => .failure (.flow ""), fun _ => .ok ()⟩
    (∃ r, (q.course x s 1).1.1 = .ended (.finished r) ∧ r.lastMessage? = some stoppedMessage) ∧
      Flow.unreachable other ∈ q.flow.nodeDiagnostics other ∧ Foretold q x s :=
  ⟨⟨_, rfl, rfl⟩, List.mem_append_left _ (List.mem_singleton.mpr rfl), diagnosis_foretells _ _ _⟩

end Run

end StepFlow
