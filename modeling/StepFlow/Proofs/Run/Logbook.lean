/-
  StepFlow.Proofs.Run.Logbook — the log of a run is a word of one language.

  A word is read along the visits that a run makes (`Word`): for each of them that its node is
  executing and what the handler says (`Says`), and then one entry that ends the log. A
  failure strikes before a handler has said anything, or after it has told of its call; what
  it has said stays. The last entry is the only terminal one, and its status decides the
  outcome (`Closes`).

  Proved, for every course:
  (1) `says_visit`: handlers say what is allowed for the type of their node.
  (2) `Turns.logged`, `course_logged`: all along, the log tells of the visits made so far, and
      of a call that is out; when the run finishes, the log is a word along its visits.
  (3) `Word.closes`: every word closes with its only terminal entry.
-/

import StepFlow.Proofs.Run.Course
import StepFlow.Proofs.Run.Itinerary

namespace StepFlow.Run

open Script (Memory)

/-! ## The language -/

/-- What the handler of a node says, by whether it succeeds. -/
inductive Says (n : Node) : Bool → List Entry → Prop
  | idle : n.type = .start ∨ n.type = .task ∨ n.type = .finish → Says n true []
  | script (ok : Bool) : n.type = .script → Says n ok []
  | decided (b : Bool) : n.type = .decision →
      Says n true [entryOf n ("Condition evaluated to: " ++ if b then "true" else "false") .info]
  | undecided : n.type = .decision → Says n false []
  | unconfigured : n.type = .api → n.data.apiConfig = none → Says n true []
  | answered {c : ApiConfig} : n.type = .api → n.data.apiConfig = some c →
      Says n true
        [entryOf n ("Calling API: " ++ c.method.text ++ " " ++ c.url) .info, entryOf n "API Response received" .success]
  | unanswered {c : ApiConfig} : n.type = .api → n.data.apiConfig = some c →
      Says n false [entryOf n ("Calling API: " ++ c.method.text ++ " " ++ c.url) .info]

/-- What is told of a run that no connection leads on from the node. -/
inductive Warns (flow : Flow) (n : Node) : Entry → Prop
  | unconnected : Warns flow n (entryOf n "Flow stopped (no more connections)" .warning)
  | portless (port : String) : n.type = .decision →
      Warns flow n (entryOf n ("No connection for port \"" ++ port ++ "\"") .warning)
  | dangling {c : Connection} : c ∈ flow.connections → flow.node? c.target = none →
      Warns flow n (systemEntry (missingMessage c) .warning)

/-- The log of a run from the node on, with the visits that it makes from this memory, and its outcome. -/
inductive Word (flow : Flow) : Node → Memory → List Leg → List Entry → Outcome → Prop
  /-- The budget allows no visit. -/
  | barred (n : Node) (m : Memory) (f : NodeFault) :
      Word flow n m [] [entryOf n ("Error: " ++ f.message) .error] .aborted
  | fails {l : Leg} {f : NodeFault} {es : List Entry} : l.visit.result = .error f → Says l.node false es →
      Word flow l.node l.before [l]
        (entryOf l.node ("Executing " ++ l.node.type.text) .info :: es ++
          [entryOf l.node ("Error: " ++ f.message) .error])
        .aborted
  | finishes {l : Leg} {es : List Entry} : l.fate flow = .ends → l.node.type = .finish → Says l.node true es →
      Word flow l.node l.before [l]
        (entryOf l.node ("Executing " ++ l.node.type.text) .info :: es ++
          [entryOf l.node "Flow finished successfully" .success])
        .success
  | stops {l : Leg} {es : List Entry} {e : Entry} : l.fate flow = .strands → Says l.node true es → Warns flow l.node e →
      Word flow l.node l.before [l] (entryOf l.node ("Executing " ++ l.node.type.text) .info :: es ++ [e]) .stopped
  | onward {l : Leg} {es : List Entry} {next : Node} {ls : List Leg} {rest : List Entry} {o : Outcome} :
      l.fate flow = .goesTo next → Says l.node true es → Word flow next l.after ls rest o →
        Word flow l.node l.before (l :: ls)
          (entryOf l.node ("Executing " ++ l.node.type.text) .info :: es ++ rest) o

/-- An entry that ends a log. -/
def isTerminal (e : Entry) : Bool :=
  match e.status with
  | .info => false
  | .success => e.message == "Flow finished successfully"
  | .warning | .error => true

/-- The log ends with that entry, its only terminal one, which decides the outcome. -/
structure Closes (e : Entry) (es : List Entry) (o : Outcome) : Prop where
  last : es.getLast? = some e
  only : es.filter isTerminal = [e]
  success : o = .success ↔ e.status = .success
  stopped : o = .stopped ↔ e.status = .warning
  aborted : o = .aborted ↔ e.status = .error

/-! ## What handlers say -/

def Leg.succeeds (l : Leg) : Bool := l.visit.result.isOk

theorem says_visit (l : Leg) : Says l.node l.succeeds (told l.node l.visit.effects) := by
  have hv := visit_cases l.node l.before l.answer
  unfold Leg.succeeds Leg.visit
  generalize visit l.node l.before l.answer = v at hv
  cases hv with
  | idle ht =>
    rcases ht with ht | ht
    · exact .idle (.inl ht)
    · exact .idle (.inr (.inl ht))
  | finish ht => exact .idle (.inr (.inr ht))
  | blank ht | script ht => exact .script true ht
  | scriptFails ht => exact .script false ht
  | undecided ht => exact .decided false ht
  | decided ht => exact .decided _ ht
  | conditionFails ht => exact .undecided ht
  | unconfigured ht hc => exact .unconfigured ht hc
  | answered ht hc =>
    rw [told_append, told_append, told_logs, List.nil_append]
    exact .answered ht hc
  | unanswered ht hc =>
    rw [told_append, told_logs, List.append_nil]
    exact .unanswered ht hc

theorem says_ok {l : Leg} {t : Transition} (h : l.visit.result = .ok t) :
    Says l.node true (told l.node l.visit.effects) := by
  have hsays := says_visit l
  rw [Leg.succeeds, h] at hsays
  exact hsays

theorem says_error {l : Leg} {f : NodeFault} (h : l.visit.result = .error f) :
    Says l.node false (told l.node l.visit.effects) := by
  have hsays := says_visit l
  rw [Leg.succeeds, h] at hsays
  exact hsays

/-! ## Words -/

/-- A visit that strands ends the run as stopped. -/
theorem fate_strands {flow : Flow} {l : Leg} {e : Ending} (h : l.way flow = .ends e) (ho : e.outcome = .stopped) :
    l.fate flow = .strands := by
  have hfate := way_fate flow l
  rw [h] at hfate
  cases hf : l.fate flow with
  | strands => rfl
  | fails | ends =>
    simp only [hf] at hfate
    obtain ⟨e', he, ho'⟩ := hfate
    cases he
    rw [ho] at ho'
    cases ho'
  | goesTo next =>
    simp only [hf] at hfate
    cases hfate

/-- The log of a visit that ends the run. -/
theorem last_word {flow : Flow} {l : Leg} {e : Ending} (h : l.way flow = .ends e) :
    Word flow l.node l.before [l] (l.entries ++ [e.entry]) e.outcome := by
  cases hr : l.visit.result with
  | error f =>
    have hway : l.way flow = .ends (.failed l.node f) := by rw [Leg.way, hr, wayFrom]
    rw [h] at hway
    cases hway
    exact .fails hr (says_error hr)
  | ok t =>
    have hsays := says_ok hr
    have hway : wayOut flow l.node t = .ends e := by
      rw [Leg.way, hr] at h
      exact h
    cases wayOut_ends hway (visit_fits hr) with
    | done ht => exact .finishes (ends_iff.mpr ht) ht hsays
    | @unconnected port ht hp hc =>
      have hstrands := fate_strands h rfl
      cases port with
      | none => exact .stops hstrands hsays .unconnected
      | some port => exact .stops hstrands hsays (.portless port (hp rfl))
    | dangling hc hn =>
      exact .stops (fate_strands h rfl) hsays (.dangling (List.mem_of_find?_eq_some hc) hn)

theorem onto_ok {flow : Flow} {l : Leg} {next : Node} (h : l.way flow = .onto next) : ∃ t, l.visit.result = .ok t := by
  cases hr : l.visit.result with
  | ok t => exact ⟨t, rfl⟩
  | error f =>
    rw [Leg.way, hr] at h
    cases h

/-- The visits that have led to a node, with what has been told of them and the memory that they leave. -/
inductive Through (flow : Flow) (start : Node) (seed : Memory) : List Leg → List Entry → Node → Memory → Prop
  | here : Through flow start seed [] [] start seed
  | on {ls : List Leg} {es : List Entry} {l : Leg} {next : Node} : Through flow start seed ls es l.node l.before →
      l.way flow = .onto next → Through flow start seed (ls ++ [l]) (es ++ l.entries) next l.after

theorem Through.word {flow : Flow} {start n : Node} {seed m : Memory} {ls ls' : List Leg} {es es' : List Entry}
    {o : Outcome} (h : Through flow start seed ls es n m) (hw : Word flow n m ls' es' o) :
    Word flow start seed (ls ++ ls') (es ++ es') o := by
  induction h generalizing ls' es' with
  | here => exact hw
  | @on ls es l next ht hway ih =>
    obtain ⟨t, hr⟩ := onto_ok hway
    rw [List.append_assoc, List.append_assoc]
    exact ih (.onward (way_onto hway) (says_ok hr) hw)

/-! ## The end of a word -/

theorem says_open {n : Node} {ok : Bool} {es : List Entry} (h : Says n ok es) : ∀ e ∈ es, isTerminal e = false := by
  cases h with
  | idle | script | undecided | unconfigured => exact fun e he => (by cases he)
  | decided b =>
    intro e he
    rw [List.mem_singleton.mp he]
    rfl
  | answered =>
    intro e he
    rcases List.mem_cons.mp he with rfl | he
    · rfl
    · rw [List.mem_singleton.mp he]
      rfl
  | unanswered =>
    intro e he
    rw [List.mem_singleton.mp he]
    rfl

theorem closes_after {o : Outcome} {e : Entry} {es rest : List Entry} (hes : ∀ e ∈ es, isTerminal e = false)
    (h : Closes e rest o) : Closes e (es ++ rest) o := by
  have hfilter : es.filter isTerminal = [] := List.filter_eq_nil_iff.mpr fun e he => by rw [hes e he]; decide
  refine ⟨?_, ?_, h.success, h.stopped, h.aborted⟩
  · rw [List.getLast?_append, h.last]
    rfl
  · rw [List.filter_append, hfilter, h.only]
    rfl

/-- What is told of a visit does not end the log. -/
theorem visited_open {n : Node} {ok : Bool} {es : List Entry} (message : String) (h : Says n ok es) :
    ∀ e ∈ entryOf n message .info :: es, isTerminal e = false :=
  List.forall_mem_cons.mpr ⟨rfl, says_open h⟩

/-- The status of the entry that ends a log. -/
def Outcome.status? : Outcome → Option Status
  | .success => some .success
  | .stopped => some .warning
  | .aborted => some .error
  | .rejected => none

theorem closes_alone {e : Entry} {o : Outcome} (ht : isTerminal e = true) (hs : o.status? = some e.status) :
    Closes e [e] o := by
  refine ⟨rfl, List.filter_cons_of_pos ht, ?_, ?_, ?_⟩
  all_goals
    generalize e.status = status at hs
    cases o with
    | success | stopped | aborted =>
      cases hs
      decide
    | rejected => cases hs

theorem closes_warning {flow : Flow} {n : Node} {e : Entry} (h : Warns flow n e) : Closes e [e] .stopped := by
  cases h with
  | unconnected | portless | dangling => exact closes_alone rfl rfl

/-- A word closes with its only terminal entry. -/
theorem Word.closes {flow : Flow} {n : Node} {m : Memory} {ls : List Leg} {es : List Entry} {o : Outcome}
    (h : Word flow n m ls es o) : ∃ e, Closes e es o := by
  induction h with
  | barred n m f => exact ⟨_, closes_alone rfl rfl⟩
  | fails hr hs => exact ⟨_, closes_after (visited_open _ hs) (closes_alone rfl rfl)⟩
  | finishes hf ht hs => exact ⟨_, closes_after (visited_open _ hs) (closes_alone rfl rfl)⟩
  | stops hf hs hw => exact ⟨_, closes_after (visited_open _ hs) (closes_warning hw)⟩
  | onward hf hs hw ih =>
    obtain ⟨e, he⟩ := ih
    exact ⟨e, closes_after (visited_open _ hs) he⟩

/-! ## The log of a course -/

/-- The visit that a turn completes. -/
def Standing.leg? (m : Standing) (s : Surroundings) (k : Nat) : Option Leg :=
  match m.1.1 with
  | .going (.arriving n) =>
    match m.2.settings.bar? m.2.heap m.1.2.steps, (Handler.run n ⟨m.1.2.env, m.2.heap⟩).reached with
    | some _, _ | none, .calling _ => none
    | none, .done _ | none, .failed _ => some ⟨n, ⟨m.1.2.env, m.2.heap⟩, s.answer k⟩
  | .going (.calling n _) => some ⟨n, ⟨m.1.2.env, m.2.heap⟩, s.answer k⟩
  | .going (.pausing ..) | .ended _ => none

/-- The visits that a run has made after that many turns. -/
def Request.legs (q : Request) (x : Executor) (s : Surroundings) : Nat → List Leg
  | 0 => []
  | k + 1 => q.legs x s k ++ ((q.course x s k).leg? s k).toList

/-- What the log tells of a run that has made these visits. -/
inductive Logged (flow : Flow) (start : Node) (seed : Memory) (legs : List Leg) : Standing → Prop
  | between {stage : Stage} {w : Walk} {y : Executor} {es : List Entry} : (∀ n c, stage ≠ .calling n c) →
      w.entries = startingEntry :: es → w.steps = legs.length →
        Through flow start seed legs es stage.node ⟨w.env, y.heap⟩ → Logged flow start seed legs ((.going stage, w), y)
  | within {n : Node} {c : Http.Call} {w : Walk} {y : Executor} {es : List Entry} :
      (Handler.run n ⟨w.env, y.heap⟩).reached = .calling c →
        w.entries = startingEntry ::
          (es ++ entryOf n ("Executing " ++ n.type.text) .info :: told n (Handler.run n ⟨w.env, y.heap⟩).effects) →
          w.steps = legs.length + 1 → Through flow start seed legs es n ⟨w.env, y.heap⟩ →
            Logged flow start seed legs ((.going (.calling n c), w), y)
  | finished {r : Result} {w : Walk} {y : Executor} {es : List Entry} : r.entries = startingEntry :: es →
      r.steps = legs.length → Word flow start seed legs es r.outcome →
        Logged flow start seed legs ((.ended (.finished r), w), y)
  | raised {c : Crash} {w : Walk} {y : Executor} : Logged flow start seed legs ((.ended (.raised c), w), y)

/-- The handlers that call leave their memory. -/
theorem calls_memory {n : Node} {m : Memory} {c : Http.Call} (h : (Handler.run n m).reached = .calling c) :
    (Handler.run n m).memory = m := by
  have ht := calls_api h
  have hrun : Handler.run n m = Handler.api n m := by simp only [Handler.run, ht]
  rw [hrun]
  unfold Handler.api
  cases n.data.apiConfig <;> rfl

section

variable {flow : Flow} {start : Node} {seed : Memory} {legs : List Leg}

/-- After a visit, whichever way the run goes. -/
theorem Goes.logged {l : Leg} {v : Walk} {y : Executor} {r : Standing} {way : Way} {es : List Entry}
    (h : Goes v y r way) (hway : l.way flow = way) (ht : Through flow start seed legs es l.node l.before)
    (he : v.entries = startingEntry :: (es ++ l.entries)) (hs : v.steps = legs.length + 1)
    (hm : (⟨v.env, y.heap⟩ : Memory) = l.after) : Logged flow start seed (legs ++ [l]) r := by
  have hlength : v.steps = (legs ++ [l]).length := by
    rw [hs, List.length_append]
    rfl
  cases h with
  | ends hc =>
    refine .finished ?_ hlength (ht.word (last_word hway))
    rw [Ending.result, he, List.cons_append, List.append_assoc]
  | raises hp hc => exact .raised
  | @onto pace next z hp hk =>
    have hnext : Through flow start seed (legs ++ [l]) (es ++ l.entries) next ⟨v.env, z.heap⟩ := by
      rw [hk.heap, hm]
      exact .on ht hway
    cases pace with
    | none => exact .between (fun n c hc => by cases hc) he hlength hnext
    | some seconds => exact .between (fun n c hc => by cases hc) he hlength hnext

theorem leg?_barred {n : Node} {w : Walk} {x : Executor} {f : NodeFault} (hb : x.settings.bar? x.heap w.steps = some f)
    (s : Surroundings) (k : Nat) : Standing.leg? ((.going (.arriving n), w), x) s k = none := by
  simp only [Standing.leg?, hb]

theorem leg?_calls {n : Node} {w : Walk} {x : Executor} {c : Http.Call} (hb : x.settings.bar? x.heap w.steps = none)
    (hr : (Handler.run n ⟨w.env, x.heap⟩).reached = .calling c) (s : Surroundings) (k : Nat) :
    Standing.leg? ((.going (.arriving n), w), x) s k = none := by
  simp only [Standing.leg?, hb, hr]

theorem leg?_visits {n : Node} {w : Walk} {x : Executor} (hb : x.settings.bar? x.heap w.steps = none)
    (hr : ∀ c, (Handler.run n ⟨w.env, x.heap⟩).reached ≠ .calling c) (s : Surroundings) (k : Nat) :
    Standing.leg? ((.going (.arriving n), w), x) s k = some ⟨n, ⟨w.env, x.heap⟩, s.answer k⟩ := by
  simp only [Standing.leg?, hb]
  cases h : (Handler.run n ⟨w.env, x.heap⟩).reached with
  | calling c => exact absurd h (hr c)
  | done t | failed f => rfl

/-- A run that the budget bars finishes without another visit. -/
theorem logged_barred {n : Node} {w : Walk} {x : Executor} {f : NodeFault} {r : Standing} {es : List Entry}
    (hg : Goes w x r (.ends (.barred n f))) (he : w.entries = startingEntry :: es) (hs : w.steps = legs.length)
    (ht : Through flow start seed legs es n ⟨w.env, x.heap⟩) : Logged flow start seed legs r := by
  have hword := ht.word (.barred n ⟨w.env, x.heap⟩ f)
  rw [List.append_nil] at hword
  cases hg with
  | ends hc =>
    refine .finished ?_ hs hword
    rw [Ending.result, he]
    rfl

theorem logged_calls {n : Node} {c : Http.Call} {w : Walk} {x y : Executor} {es : List Entry}
    (hr : (Handler.run n ⟨w.env, x.heap⟩).reached = .calling c)
    (hk : Keeps { x with heap := (Handler.run n ⟨w.env, x.heap⟩).memory.heap } y)
    (he : w.entries = startingEntry :: es) (hs : w.steps = legs.length)
    (ht : Through flow start seed legs es n ⟨w.env, x.heap⟩) :
    Logged flow start seed legs
      ((.going (.calling n c), (w.executing n).handled n (Handler.run n ⟨w.env, x.heap⟩)), y) := by
  have hmemory : (⟨(Handler.run n ⟨w.env, x.heap⟩).memory.env, y.heap⟩ : Memory) = ⟨w.env, x.heap⟩ := by
    rw [hk.heap, calls_memory hr]
  have hthrough : Through flow start seed legs es n ⟨(Handler.run n ⟨w.env, x.heap⟩).memory.env, y.heap⟩ := by
    rw [hmemory]
    exact ht
  refine .within ?_ ?_ (congrArg (· + 1) hs) hthrough
  · exact (congrArg (fun m => (Handler.run n m).reached) hmemory).trans hr
  · show w.entries ++ [entryOf n s!"Executing {n.type.text}" .info] ++
        told n (Handler.run n ⟨w.env, x.heap⟩).effects =
      startingEntry :: (es ++ entryOf n ("Executing " ++ n.type.text) .info ::
        told n (Handler.run n ⟨(Handler.run n ⟨w.env, x.heap⟩).memory.env, y.heap⟩).effects)
    rw [hmemory, he, List.append_assoc]
    rfl

/-- A visit without a call. -/
theorem logged_visits {n : Node} {w : Walk} {x : Executor} {r : Standing} {es : List Entry} (a : Http.Answer)
    (hr : ∀ c, (Handler.run n ⟨w.env, x.heap⟩).reached ≠ .calling c)
    (hg : Goes ((w.executing n).handled n (Handler.run n ⟨w.env, x.heap⟩)).left
      { x with heap := (Handler.run n ⟨w.env, x.heap⟩).memory.heap } r
      (wayFrom flow n (resumedResult (Handler.run n ⟨w.env, x.heap⟩).reached)))
    (he : w.entries = startingEntry :: es) (hs : w.steps = legs.length)
    (ht : Through flow start seed legs es n ⟨w.env, x.heap⟩) :
    Logged flow start seed (legs ++ [⟨n, ⟨w.env, x.heap⟩, a⟩]) r := by
  let l : Leg := ⟨n, ⟨w.env, x.heap⟩, a⟩
  have hv : l.visit = _ := visit_silent a hr
  have hwalk := visited_silent (l := l) (w := w) hr
  refine hg.logged (l := l) ?_ ht ?_ (congrArg (· + 1) hs) ?_
  · rw [Leg.way, hv]
  · rw [← hwalk, Walk.visited, he]
    rfl
  · rw [Leg.after, hv]
    rfl

/-- A visit with a call, when it is answered. -/
theorem logged_resumes {n : Node} {c : Http.Call} {w : Walk} {x : Executor} {r : Standing} {es : List Entry}
    (a : Http.Answer) (hr : (Handler.run n ⟨w.env, x.heap⟩).reached = .calling c)
    (hg : Goes (w.handled n (Handler.resume n c a ⟨w.env, x.heap⟩)).left
      { x with heap := (Handler.resume n c a ⟨w.env, x.heap⟩).memory.heap } r
      (wayFrom flow n (resumedResult (Handler.resume n c a ⟨w.env, x.heap⟩).reached)))
    (he : w.entries = startingEntry ::
      (es ++ entryOf n ("Executing " ++ n.type.text) .info :: told n (Handler.run n ⟨w.env, x.heap⟩).effects))
    (hs : w.steps = legs.length + 1) (ht : Through flow start seed legs es n ⟨w.env, x.heap⟩) :
    Logged flow start seed (legs ++ [⟨n, ⟨w.env, x.heap⟩, a⟩]) r := by
  let l : Leg := ⟨n, ⟨w.env, x.heap⟩, a⟩
  have hv : l.visit = _ := visit_calling a hr
  rw [calls_memory hr] at hv
  refine hg.logged (l := l) ?_ ht ?_ hs ?_
  · rw [Leg.way, hv]
  · show w.entries ++ told n (Handler.resume n c a ⟨w.env, x.heap⟩).effects = _
    rw [he, Leg.entries, hv, told_append, List.cons_append, List.append_assoc]
    rfl
  · rw [Leg.after, hv]
    rfl

/-- A turn tells of what it does. -/
theorem Turns.logged {w : Walk} {x : Executor} {stage : Stage} {e : Event} {s : Surroundings} {k : Nat} {r : Standing}
    (ht : Turns w x stage e r) (he : e = s.event k stage) (hf : w.flow = flow)
    (h : Logged flow start seed legs ((.going stage, w), x)) :
    Logged flow start seed (legs ++ (Standing.leg? ((.going stage, w), x) s k).toList) r := by
  subst hf
  cases ht with
  | barred hb hg =>
    obtain ⟨-, hentries, hsteps, hthrough⟩ := h
    rw [leg?_barred hb, Option.toList_none, List.append_nil]
    exact logged_barred hg hentries hsteps hthrough
  | calls hb hr hk =>
    obtain ⟨-, hentries, hsteps, hthrough⟩ := h
    rw [leg?_calls hb hr, Option.toList_none, List.append_nil]
    exact logged_calls hr hk hentries hsteps hthrough
  | visits hb hr hg =>
    obtain ⟨-, hentries, hsteps, hthrough⟩ := h
    rw [leg?_visits hb hr]
    exact logged_visits (s.answer k) hr hg hentries hsteps hthrough
  | @resumes n c a r hg =>
    cases he
    cases h with
    | between hstage => exact absurd rfl (hstage n c)
    | within hreached hentries hsteps hthrough =>
      exact logged_resumes (s.answer k) hreached hg hentries hsteps hthrough
  | wakes =>
    obtain ⟨-, hentries, hsteps, hthrough⟩ := h
    rw [Standing.leg?, Option.toList_none, List.append_nil]
    exact .between (fun n c hc => by cases hc) hentries hsteps hthrough
  | disturbed hc => exact .raised

end

section

variable {q : Request} {x : Executor} {s : Surroundings} {k : Nat}

theorem legs_ended {e : Ended} (h : (q.course x s k).1.1 = .ended e) : q.legs x s (k + 1) = q.legs x s k := by
  rw [Request.legs, Standing.leg?, h, Option.toList_none, List.append_nil]

theorem legs_going {stage : Stage} (h : (q.course x s k).1.1 = .going stage) : q.legs x s (k + 1) =
    q.legs x s k ++ (Standing.leg? ((.going stage, (q.course x s k).1.2), (q.course x s k).2) s k).toList := by
  rw [Request.legs, Standing.leg?, h]
  rfl

/-- All along, the log tells of the visits made so far. -/
theorem course_logged {n : Node} (hn : q.flow.startNode? = some n) (k : Nat) :
    Logged q.flow n (contextOf q.seed x.heap) (q.legs x s k) (q.course x s k) := by
  induction k with
  | zero =>
    rcases begun_cases q x with ⟨hnone, -⟩ | ⟨m, y, hm, hy, hk⟩
    · rw [hn] at hnone
      cases hnone
    · rw [hn] at hm
      cases hm
      rw [Request.course, hy]
      refine .between (fun n c hc => by cases hc) rfl rfl ?_
      rw [hk.heap]
      exact .here
  | succ k ih =>
    cases hk : (q.course x s k).1.1 with
    | ended e =>
      rw [course_ended q s hk, legs_ended hk]
      exact ih
    | going stage =>
      have hturns := course_turns hk
      have hflow := (course_sound q x s k).flow
      rw [Request.legs]
      rcases hm : q.course x s k with ⟨⟨pr, w⟩, y⟩
      rw [hm] at hk ih hturns hflow
      cases hk
      exact hturns.logged rfl hflow ih

/-- A run without a start node makes no visits. -/
theorem course_stranded (hn : q.flow.startNode? = none) (k : Nat) :
    q.course x s k = q.begun x ∧ q.legs x s k = [] := by
  induction k with
  | zero => exact ⟨rfl, rfl⟩
  | succ k ih =>
    obtain ⟨hcourse, hlegs⟩ := ih
    rcases begun_cases q x with ⟨-, y, hy, -⟩ | ⟨n, y, hsome, -, -⟩
    · have hended : ∃ e, (q.course x s k).1.1 = .ended e := ⟨_, by rw [hcourse, hy]⟩
      obtain ⟨e, hended⟩ := hended
      exact ⟨(course_ended q s hended).trans hcourse, (legs_ended hended).trans hlegs⟩
    · rw [hn] at hsome
      cases hsome

end

/-! ## Runs -/

/-- The log of every run is a word along its visits, and its last entry decides the outcome. -/
theorem run_log_is_a_word {q : Request} {x : Executor} {s : Surroundings} {k : Nat} {r : Result}
    (h : (q.course x s k).1.1 = .ended (.finished r)) :
    (∃ e, Closes e r.entries r.outcome) ∧ r.steps = (q.legs x s k).length ∧
      match q.flow.nodes.find? (·.type == .start) with
      | none => r.outcome = .aborted ∧ r.entries = [systemEntry "No Start node found in flow" .error]
      | some n => ∃ word, r.entries = systemEntry "Starting execution" .info :: word ∧
        Word q.flow n (contextOf q.seed x.heap) (q.legs x s k) word r.outcome := by
  rw [← show q.flow.startNode? = q.flow.nodes.find? (·.type == .start) from rfl]
  cases hn : q.flow.startNode? with
  | none =>
    obtain ⟨hcourse, hlegs⟩ := course_stranded (x := x) (s := s) hn k
    rcases begun_cases q x with ⟨-, y, hy, -⟩ | ⟨n, y, hsome, -, -⟩
    · rw [hcourse, hy] at h
      cases h
      rw [hlegs]
      exact ⟨⟨strandedEntry, closes_alone rfl rfl⟩, rfl, rfl, rfl⟩
    · rw [hn] at hsome
      cases hsome
  | some n =>
    have hlogged := course_logged (x := x) (s := s) hn k
    rcases hm : q.course x s k with ⟨⟨pr, w⟩, y⟩
    rw [hm] at h hlogged
    cases h
    cases hlogged with
    | @finished r w y es hentries hsteps hword =>
      obtain ⟨e, he⟩ := hword.closes
      have hstarting : ∀ e ∈ [startingEntry], isTerminal e = false := List.forall_mem_singleton.mpr rfl
      refine ⟨⟨e, ?_⟩, hsteps, es, hentries, hword⟩
      rw [hentries]
      exact closes_after hstarting he

/-- A call that is not answered in time. -/
theorem log_of_an_unanswered_call :
    let start : Node := ⟨"s", .start, .origin, ⟨"Start", none, none, none, none⟩⟩
    let call : Node := ⟨"a", .api, .origin, ⟨"Call", none, none, none, some ⟨"http://x", .get, none, none⟩⟩⟩
    let q : Request := ⟨.none, "t", ⟨"f", "Call", none, [start, call], [⟨"c", "s", "a", none⟩]⟩, []⟩
    let x : Executor := .create ⟨.scalar (.int 0), .scalar (.int 10)⟩ ⟨0, []⟩ .empty
    let s : Surroundings := ⟨fun _ => .failure (.network "ConnectTimeout" "slow"), fun _ => .ok ()⟩
    ∃ r, (q.course x s 3).1.1 = .ended (.finished r) ∧
      r.entries.map (·.message) =
        ["Starting execution", "Executing START", "Executing API", "Calling API: GET http://x",
          "Error: Network error: slow"] ∧
      (∃ e, Closes e r.entries r.outcome) ∧ r.steps = (q.legs x s 3).length ∧
      ∃ word, r.entries = systemEntry "Starting execution" .info :: word ∧
        Word q.flow start (contextOf q.seed x.heap) (q.legs x s 3) word r.outcome :=
  ⟨_, rfl, rfl, run_log_is_a_word rfl⟩

end StepFlow.Run
