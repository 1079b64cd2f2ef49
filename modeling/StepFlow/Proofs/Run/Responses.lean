/-
  StepFlow.Proofs.Run.Responses — the responses of a run stay in the object that was made for them.

  A run begins by binding `responses` to a new object. No statement of a script can bind the
  name again, and a container stays one of its kind, whatever scripts do to it through this
  name or another one (`Keeping`). So an answer is stored in that object, under the id of its
  node, and nothing else changes then (`Stored`).

  Proved, for every flow with a start node, seed, executor and surroundings:
  (1) `executed_keeping`: the steps of a script keep the name and the object.
  (2) `course_keeping`: so does a run, by induction on its turns.
  (3) `course_stored`: what a call that succeeds does to the memory.
  (4) `course_bodies`: if the scripts that have run assign to names only, the object shows the
      bodies of the calls so far, by induction on the turns.
-/

import StepFlow.Proofs.Run.Outbound

namespace StepFlow

/-! ## Entries -/

theorem same_str {key : Scalar} {s : String} : key.same (.str s) = true ↔ key = .str s := by
  constructor
  · intro h
    cases key with
    | str t => exact congrArg Scalar.str (eq_of_beq h)
    | null | bool | int | float | nan => cases h
  · rintro rfl
    exact beq_self_eq_true s

theorem str_same {key : Scalar} {s : String} : (Scalar.str s).same key = true ↔ key = .str s := by
  have hcomm : (Scalar.str s).same key = key.same (.str s) := by
    cases key with
    | str t => exact BEq.comm
    | null | bool | int | float | nan => rfl
  rw [hcomm, same_str]

theorem lookupKey_cons (key' : Scalar) (w : Value) (es : List (Scalar × Value)) (key : Scalar) :
    lookupKey ((key', w) :: es) key = if key'.same key then some w else lookupKey es key := by
  unfold lookupKey
  rw [List.find?_cons]
  cases key'.same key <;> rfl

theorem lookupKey_assigned (es : List (Scalar × Value)) (name : String) (v : Value) :
    lookupKey (assignKey es (.str name) v) (.str name) = some v := by
  induction es with
  | nil => rw [assignKey, lookupKey_cons, if_pos (str_same.mpr rfl)]
  | cons e es ih =>
    rw [assignKey]
    split
    · rename_i hsame
      rw [lookupKey_cons, if_pos hsame]
    · rename_i hsame
      rw [lookupKey_cons, if_neg hsame, ih]

/-- Assigning to a name is not seen under other keys. -/
theorem lookupKey_other {key : Scalar} {name : String} (hkey : key ≠ .str name) (es : List (Scalar × Value))
    (v : Value) : lookupKey (assignKey es (.str name) v) key = lookupKey es key := by
  have hname : ¬ (Scalar.str name).same key = true := fun h => hkey (str_same.mp h)
  induction es with
  | nil => rw [assignKey, lookupKey_cons, if_neg hname]
  | cons e es ih =>
    obtain ⟨key', w⟩ := e
    rw [assignKey]
    split
    · rename_i hsame
      rw [same_str.mp hsame, lookupKey_cons, lookupKey_cons, if_neg hname, if_neg hname]
    · rw [lookupKey_cons, lookupKey_cons, ih]

namespace Run

open Script (Memory Step executed Touched Footprint)

/-! ## Keeping the object -/

/-- The name stands for this object. -/
structure Keeping (base : Ref) (m : Memory) : Prop where
  responses : m.env.get? "responses" = some (.ref base)
  object : ∃ es, m.heap.cells[base]? = some (.object es)

section

variable {base : Ref} {m n : Memory}

theorem Keeping.size (h : Keeping base m) : base < m.heap.cells.size := by
  obtain ⟨es, hes⟩ := h.object
  exact (Array.getElem?_eq_some_iff.mp hes).1

/-- Whatever is done to the containers up to the object, it stays an object. -/
theorem Keeping.leaves {steps : List Step} (h : Keeping base m) (hl : Leaves steps (base + 1) m n) :
    Keeping base n := by
  refine ⟨hl.responses.trans h.responses, ?_⟩
  obtain ⟨es, hes⟩ := h.object
  have hkept := hl.kept base (Nat.lt_succ_self base)
  have hcell : m.heap.cell base = .object es :=
    Option.some.inj ((Script.getElem?_eq_cell h.size).symm.trans hes)
  rw [Script.getElem?_eq_cell (Nat.lt_of_lt_of_le h.size hl.size)]
  rw [hcell] at hkept
  generalize n.heap.cell base = c at hkept ⊢
  cases hkept with
  | object added hkeys hadded => exact ⟨_, rfl⟩

theorem Keeping.footprint {steps : List Step} (h : Keeping base m) (hf : Footprint readonlyNames steps m n) :
    Keeping base n :=
  h.leaves ⟨hf.toTouched.mono h.size, hf.size, hf.readonly _ (List.mem_singleton_self _)⟩

/-- Each step of a script finds the object, and leaves it. -/
theorem executed_keeping (ss : List Statement) (hm : Keeping base m) :
    ∀ st ∈ executed readonlyNames ss m, Keeping base st.before ∧ Keeping base (st.after readonlyNames).2 := by
  induction ss generalizing m with
  | nil => exact fun st hst => by cases hst
  | cons statement ss ih =>
    intro st hst
    have hafter := hm.footprint (Script.execStatement_does readonlyNames ⟨statement, m⟩).footprint
    rw [executed] at hst
    rcases List.mem_cons.mp hst with rfl | hst
    · exact ⟨hm, hafter⟩
    · unfold Step.after at hafter
      generalize (Script.execStatement readonlyNames statement).run m = o at hst hafter
      obtain ⟨f | u, n⟩ := o
      · cases hst
      · exact ih hafter st hst

/-- Steps that enter no container leave all of them, each of them as well. -/
theorem executed_unentered (ss : List Statement) (m : Memory)
    (hu : ∀ st ∈ executed readonlyNames ss m, st.entered? = none) :
    ∀ st ∈ executed readonlyNames ss m,
      m.heap.Keeps st.before.heap ∧ m.heap.Keeps (st.after readonlyNames).2.heap := by
  induction ss generalizing m with
  | nil => exact fun st hst => by cases hst
  | cons statement ss ih =>
    intro st hst
    have hfoot := (Script.execStatement_does readonlyNames ⟨statement, m⟩).footprint
    rw [executed] at hu hst
    have hfirst : Step.entered? ⟨statement, m⟩ = none := hu _ List.mem_cons_self
    have hkeeps : m.heap.Keeps (Step.after readonlyNames ⟨statement, m⟩).2.heap := fun r hr =>
      hfoot.unentered r hr fun st hst => by
        rw [List.mem_singleton.mp hst, hfirst]
        exact (Option.some_ne_none r).symm
    rcases List.mem_cons.mp hst with rfl | hst
    · exact ⟨.refl _, hkeeps⟩
    · have hrest := fun st hst => hu st (List.mem_cons_of_mem _ hst)
      unfold Step.after at hkeeps
      generalize (Script.execStatement readonlyNames statement).run m = o at hst hrest hkeeps
      obtain ⟨f | u, n⟩ := o
      · cases hst
      · obtain ⟨hbefore, hafter⟩ := ih n hrest st hst
        exact ⟨hkeeps.trans hbefore, hkeeps.trans hafter⟩

theorem stepsAt_cases (node : Node) (m : Memory) :
    stepsAt node m = [] ∨ ∃ ss, stepsAt node m = executed readonlyNames ss m := by
  unfold stepsAt Script.executedOf
  split
  · split
    · exact .inr ⟨_, rfl⟩
    · exact .inl rfl
  · exact .inl rfl

theorem stepsAt_keeping (node : Node) (hm : Keeping base m) :
    ∀ st ∈ stepsAt node m, Keeping base st.before ∧ Keeping base (st.after readonlyNames).2 := by
  rcases stepsAt_cases node m with hnone | ⟨ss, hss⟩
  · rw [hnone]
    exact fun st hst => by cases hst
  · rw [hss]
    exact executed_keeping ss hm

theorem stepsAt_keeps {node : Node} (h : bindsOnly node = true) (m : Memory) :
    ∀ st ∈ stepsAt node m, m.heap.Keeps st.before.heap ∧ m.heap.Keeps (st.after readonlyNames).2.heap := by
  have hu := stepsAt_unentered h m
  rcases stepsAt_cases node m with hnone | ⟨ss, hss⟩
  · rw [hnone]
    exact fun st hst => by cases hst
  · rw [hss] at hu ⊢
    exact executed_unentered ss m hu

/-! ## Answers -/

/-- An answer is stored in the object, and nothing else changes. -/
structure Stored (base : Ref) (id : String) (j : Json) (m n : Memory) : Prop where
  env : n.env = m.env
  others : ∀ r < m.heap.cells.size, r ≠ base → n.heap.cells[r]? = m.heap.cells[r]?
  /-- The id has a value that shows the document, in new containers; every other entry is as before. -/
  entry : ∃ es v, m.heap.cells[base]? = some (.object es) ∧
    n.heap.cells[base]? = some (.object (assignKey es (.str id) v)) ∧
    lookupKey (assignKey es (.str id) v) (.str id) = some v ∧ n.heap.Shows m.heap.cells.size v j ∧
    ∀ key, key ≠ .str id → lookupKey (assignKey es (.str id) v) key = lookupKey es key

theorem store_object {es : List (Scalar × Value)} (hm : Keeping base m) (hes : m.heap.cells[base]? = some (.object es))
    (id : String) (v : Value) :
    Handler.store m id v = { m with heap := m.heap.write base (.object (assignKey es (.str id) v)) } := by
  have hcell : m.heap.cell base = .object es :=
    Option.some.inj ((Script.getElem?_eq_cell hm.size).symm.trans hes)
  have hresponses : m.env.get? responsesName = some (.ref base) := hm.responses
  simp only [Handler.store, hresponses, hcell]

/-- An answer that is stored gives the object an entry, whose containers are new. -/
theorem store_answer {es : List (Scalar × Value)} (hm : Keeping base m)
    (hes : m.heap.cells[base]? = some (.object es)) (id : String) (j : Json) :
    base < (m.heap.ofJson j).2.cells.size ∧
      Handler.store { m with heap := (m.heap.ofJson j).2 } id (m.heap.ofJson j).1 =
        { m with heap := (m.heap.ofJson j).2.write base (.object (assignKey es (.str id) (m.heap.ofJson j).1)) } := by
  have hbase : (m.heap.ofJson j).2.cells[base]? = some (.object es) := (m.heap.ofJson_keeps j base hm.size).trans hes
  have hmade : Keeping base { m with heap := (m.heap.ofJson j).2 } := ⟨hm.responses, es, hbase⟩
  exact ⟨hmade.size, store_object hmade hbase id _⟩

theorem write_cell {h : Heap} {r : Ref} (hr : r < h.cells.size) (c : Cell) : (h.write r c).cells[r]? = some c := by
  simp [Heap.write, hr]

theorem store_stored (id : String) (j : Json) (hm : Keeping base m) :
    Stored base id j m (Handler.store { m with heap := (m.heap.ofJson j).2 } id (m.heap.ofJson j).1) := by
  obtain ⟨es, hes⟩ := hm.object
  obtain ⟨hsize, hstore⟩ := store_answer hm hes id j
  rw [hstore]
  refine ⟨rfl, fun r hr hne => ?_, es, (m.heap.ofJson j).1, hes, write_cell hsize _, lookupKey_assigned es id _, ?_,
    fun key hkey => lookupKey_other hkey es _⟩
  · rw [write_other _ hne]
    exact m.heap.ofJson_keeps j r hr
  · refine (m.heap.ofJson_shows j).again (Nat.le_refl _) fun r c hr hc => ?_
    rw [write_other _ (Nat.ne_of_gt (Nat.lt_of_lt_of_le hm.size hr))]
    exact hc

theorem Stored.keeping {id : String} {j : Json} (h : Stored base id j m n) (hm : Keeping base m) : Keeping base n := by
  obtain ⟨es, v, -, hn, -⟩ := h.entry
  exact ⟨by rw [h.env, hm.responses], _, hn⟩

end

/-! ## Visits -/

/-- The id of a node whose call succeeds, with the body of its answer. -/
def Leg.body? (l : Leg) : Option (String × Json) :=
  l.visit.call.bind fun call => (Http.settle call l.answer).1.toOption.map fun j => (l.node.id, j)

/-- What a visit leaves, by whether it calls and is answered. -/
inductive Leg.Leaving (l : Leg) : Prop
  | silent : l.body? = none → l.after = (Handler.run l.node l.before).memory → Leg.Leaving l
  | answered {j : Json} : l.body? = some (l.node.id, j) →
      l.after = Handler.store { l.before with heap := (l.before.heap.ofJson j).2 } l.node.id (l.before.heap.ofJson j).1 →
        Leg.Leaving l
  | unanswered : l.body? = none → l.after = l.before → Leg.Leaving l

theorem Leg.leaving (l : Leg) : l.Leaving := by
  cases hc : l.visit.call with
  | none =>
    refine .silent (by rw [Leg.body?, hc]; rfl) ?_
    rw [Leg.after, Leg.visit, visit_silent l.answer (visit_call_none hc)]
  | some call =>
    have hreached := visit_call_some hc
    have hvisit : l.visit = _ := visit_calling l.answer hreached
    rw [calls_memory hreached] at hvisit
    cases hs : (Http.settle call l.answer).1 with
    | ok j =>
      refine .answered (j := j) ?_ ?_
      · simp [Leg.body?, hc, hs, Except.toOption]
      · rw [Leg.after, hvisit, resume_ok hs]
    | error f =>
      refine .unanswered ?_ ?_
      · simp [Leg.body?, hc, hs, Except.toOption]
      · rw [Leg.after, hvisit, resume_error hs]

theorem Leg.keeping {base : Ref} {l : Leg} (h : Keeping base l.before) : Keeping base l.after := by
  cases l.leaving with
  | silent _ hafter =>
    rw [hafter]
    exact h.leaves (run_leaves l.node h.size)
  | answered _ hafter =>
    rw [hafter]
    exact (store_stored l.node.id _ h).keeping h
  | unanswered _ hafter =>
    rw [hafter]
    exact h

/-- The handler of a node that has no script but of assignments to names leaves all containers. -/
theorem binding_keeps {n : Node} (h : bindsOnly n = true) (m : Memory) : m.heap.Keeps (Handler.run n m).memory.heap :=
  fun r hr => (run_leaves n (Nat.le_refl m.heap.cells.size)).unentered r hr fun st hst => by
    rw [stepsAt_unentered h m st hst]
    exact (Option.some_ne_none r).symm

/-! ## Courses -/

/-- The bodies of the calls that have succeeded after that many turns, with the ids of their nodes. -/
def Request.bodies (q : Request) (x : Executor) (s : Surroundings) (k : Nat) : List (String × Json) :=
  (q.legs x s k).filterMap Leg.body?

section

variable {q : Request} {x : Executor} {s : Surroundings} {n : Node}

theorem begun_memory (hn : q.flow.startNode? = some n) : Standing.memory (q.begun x) = contextOf q.seed x.heap := by
  rcases begun_cases q x with ⟨hnone, -⟩ | ⟨m, y, -, hy, hk⟩
  · rw [hn] at hnone
    cases hnone
  · rw [hy]
    exact congrArg (Memory.mk _) hk.heap

theorem contextOf_object (seed : Env) (h : Heap) : (contextOf seed h).heap.cells[h.cells.size]? = some (.object []) :=
  Array.getElem?_push_size

/-- All along, `responses` stands for the object that was made when the run began. -/
theorem course_keeping (hn : q.flow.startNode? = some n) (k : Nat) :
    Keeping x.heap.cells.size (q.course x s k).memory := by
  induction k with
  | zero =>
    rw [Request.course, begun_memory hn]
    exact ⟨(contextOf_apart q.seed x.heap).responses, [], contextOf_object q.seed x.heap⟩
  | succ k ih =>
    cases course_advances (q := q) (x := x) (s := s) k with
    | rests _ hm => exact hm ▸ ih
    | visits l _ hbefore hm => exact hm ▸ Leg.keeping (hbefore ▸ ih)

theorem legs_keeping (hn : q.flow.startNode? = some n) (k : Nat) :
    ∀ l ∈ q.legs x s k, Keeping x.heap.cells.size l.before := by
  induction k with
  | zero => exact fun l hl => by cases hl
  | succ k ih =>
    intro l hl
    rw [Request.legs] at hl
    rcases List.mem_append.mp hl with hl | hl
    · exact ih l hl
    · rw [Option.mem_toList] at hl
      cases course_advances (q := q) (x := x) (s := s) k with
      | rests hnone => exact absurd (hnone.symm.trans hl) (Option.some_ne_none l).symm
      | visits l' hsome hbefore =>
        rw [Option.some.inj (hl.symm.trans hsome), hbefore]
        exact course_keeping hn k

theorem steps_keeping (hn : q.flow.startNode? = some n) (k : Nat) : ∀ st ∈ q.steps x s k,
    Keeping x.heap.cells.size st.before ∧ Keeping x.heap.cells.size (st.after readonlyNames).2 := by
  intro st hst
  obtain ⟨l, hl, hst⟩ := List.mem_flatMap.mp hst
  exact stepsAt_keeping l.node (legs_keeping hn k l hl) st hst

/-- A call that succeeds stores the body of its answer, and changes nothing else. -/
theorem course_stored (hn : q.flow.startNode? = some n) {k : Nat} {node : Node} {call : Http.Call} {j : Json}
    (h : (q.course x s k).1.1 = .going (.calling node call)) (hj : (Http.settle call (s.answer k)).1 = .ok j) :
    Stored x.heap.cells.size node.id j (q.course x s k).memory (q.course x s (k + 1)).memory := by
  have hstored := store_stored node.id j (course_keeping (x := x) (s := s) hn k)
  have hturns := course_turns h
  generalize q.course x s (k + 1) = r at hturns ⊢
  cases hturns with
  | resumes hg =>
    have hmemory : Standing.memory r =
        (Handler.resume node call (s.answer k) (q.course x s k).memory).memory := hg.memory
    rw [hmemory, resume_ok hj]
    exact hstored

/-- The object shows these members. -/
def Holding (base : Ref) (m : Memory) (ms : List (String × Json)) : Prop :=
  ∃ es, m.heap.cells[base]? = some (.object es) ∧ m.heap.ShowsMembers (base + 1) es ms

theorem Holding.keeps {base : Ref} {m m' : Memory} {ms : List (String × Json)} (h : Holding base m ms)
    (hk : m.heap.Keeps m'.heap) : Holding base m' ms := by
  obtain ⟨es, hes, hms⟩ := h
  exact ⟨es, Heap.Keeps.cells hk base _ (Nat.le_refl base) hes, hms.again (Nat.le_refl _) hk.cells⟩

/-- An answer that is stored becomes a member. -/
theorem Holding.store {base : Ref} {m : Memory} {ms : List (String × Json)} (h : Holding base m ms)
    (hm : Keeping base m) (id : String) (j : Json) :
    Holding base (Handler.store { m with heap := (m.heap.ofJson j).2 } id (m.heap.ofJson j).1) (Json.assign ms id j) := by
  obtain ⟨es, hes, hms⟩ := h
  obtain ⟨hsize, hstore⟩ := store_answer hm hes id j
  have hmember := (m.heap.ofJson_shows j).again hm.size fun _ _ _ hc => hc
  have hmembers := (hms.again (Nat.le_refl _) (m.heap.ofJson_keeps j).cells).assign hmember id
  rw [hstore]
  refine ⟨_, write_cell hsize _, hmembers.again (Nat.le_refl _) fun r c hr hc => ?_⟩
  rw [write_other _ (Nat.ne_of_gt hr)]
  exact hc

/-- Where scripts assign to names only, the object shows the bodies so far. -/
theorem course_bodies (hn : q.flow.startNode? = some n) (k : Nat) (hb : ∀ l ∈ q.legs x s k, bindsOnly l.node = true) :
    Holding x.heap.cells.size (q.course x s k).memory (Json.merged (q.bodies x s k)) := by
  induction k with
  | zero =>
    rw [Request.course, begun_memory hn]
    exact ⟨[], contextOf_object q.seed x.heap, .nil⟩
  | succ k ih =>
    have hholding := ih fun l hl => hb l (List.mem_append_left _ hl)
    cases course_advances (q := q) (x := x) (s := s) k with
    | rests hleg hm =>
      rw [Request.bodies, Request.legs, hleg, hm, Option.toList_none, List.append_nil]
      exact hholding
    | visits l hleg hbefore hm =>
      have hl : bindsOnly l.node = true := hb l (List.mem_append_right _ (Option.mem_toList.mpr hleg))
      have hbodies : q.bodies x s (k + 1) = q.bodies x s k ++ l.body?.toList := by
        rw [Request.bodies, Request.legs, hleg, List.filterMap_append, Option.toList_some]
        cases hbody : l.body? <;> simp [hbody, Request.bodies]
      rw [hbodies, hm]
      rw [← hbefore] at hholding
      have hkeeping : Keeping x.heap.cells.size l.before := hbefore ▸ course_keeping hn k
      cases l.leaving with
      | silent hbody hafter =>
        rw [hbody, hafter, Option.toList_none, List.append_nil]
        exact hholding.keeps (binding_keeps hl l.before)
      | answered hbody hafter =>
        rw [hbody, hafter, Option.toList_some, Json.merged, List.foldl_append]
        exact hholding.store hkeeping l.node.id _
      | unanswered hbody hafter =>
        rw [hbody, hafter, Option.toList_none, List.append_nil]
        exact hholding

end

/-- The object has the bodies: its members are their ids, in the order in which these came first,
    each with its latest body. -/
def Gathers (base : Ref) (h : Heap) (bodies : List (String × Json)) : Prop :=
  ∃ members, h.Shows base (.ref base) (.obj members) ∧
    members.map (·.1) = (bodies.map (·.1)).eraseDups ∧ ∀ id, members.lookup id = bodies.reverse.lookup id

theorem Holding.gathers {base : Ref} {m : Memory} {bodies : List (String × Json)}
    (h : Holding base m (Json.merged bodies)) : Gathers base m.heap bodies := by
  obtain ⟨es, hes, hms⟩ := h
  refine ⟨_, .obj (Nat.le_refl _) hes (hms.again (Nat.le_succ _) fun _ _ _ hc => hc), ?_, fun id => ?_⟩
  · rw [Json.merged_putAll, names_putAll]
  · rw [Json.merged_putAll, lookup_putAll]

/-! ## Runs -/

/-- What becomes of the object for the responses, which is the first container of the run. -/
structure Responsive (q : Request) (x : Executor) (s : Surroundings) : Prop where
  /-- The run begins with it, when it is empty. -/
  made : (q.course x s 0).memory = contextOf q.seed x.heap ∧
    (q.course x s 0).2.heap.cells[x.heap.cells.size]? = some (.object [])
  /-- All along, the name stands for it. -/
  kept : ∀ k, Keeping x.heap.cells.size (q.course x s k).memory
  /-- So it does before and after each step of a script, also one that fails. -/
  within : ∀ k, ∀ st ∈ q.steps x s k,
    Keeping x.heap.cells.size st.before ∧ Keeping x.heap.cells.size (st.after readonlyNames).2
  /-- A call that succeeds leaves the memory that there was before its node, but for its body. -/
  stored : ∀ k n call j, (q.course x s k).1.1 = .going (.calling n call) →
    (Http.settle call (s.answer k)).1 = .ok j →
      ∃ i, k = i + 1 ∧ (q.course x s i).1.1 = .going (.arriving n) ∧
        Stored x.heap.cells.size n.id j (q.course x s i).memory (q.course x s (k + 1)).memory
  /-- As long as scripts have assigned to names only, it has the bodies of the calls so far. -/
  gathered : ∀ k, (∀ l ∈ q.legs x s k, bindsOnly l.node = true) →
    Gathers x.heap.cells.size (q.course x s k).2.heap (q.bodies x s k)
  /-- So it does before and after each step of the script of the next visit. -/
  gatheredWithin : ∀ k l, (q.course x s k).leg? s k = some l → (∀ l' ∈ q.legs x s (k + 1), bindsOnly l'.node = true) →
    ∀ st ∈ stepsAt l.node l.before, Gathers x.heap.cells.size st.before.heap (q.bodies x s k) ∧
      Gathers x.heap.cells.size (st.after readonlyNames).2.heap (q.bodies x s k)

/-- The object for the responses survives every script. A run without a start node ends at once, with none. -/
theorem responses_survive (q : Request) (x : Executor) (s : Surroundings) :
    match q.flow.startNode? with
    | none => ∀ k, (∃ r, (q.course x s k).1.1 = .ended (.finished r)) ∧ (q.course x s k).2.heap = x.heap
    | some _ => Responsive q x s := by
  cases hn : q.flow.startNode? with
  | none =>
    intro k
    rw [(course_stranded hn k).1]
    rcases begun_cases q x with ⟨-, y, hy, hc⟩ | ⟨n, y, hsome, -⟩
    · rw [hy]
      exact ⟨⟨_, rfl⟩, hc.keeps.heap⟩
    · rw [hn] at hsome
      cases hsome
  | some n =>
    have hbegun : (q.course x s 0).memory = contextOf q.seed x.heap := begun_memory hn
    refine ⟨⟨hbegun, ?_⟩, course_keeping hn, steps_keeping hn, fun k node call j h hj => ?_, fun k hb => ?_,
      fun k l hleg hb st hst => ?_⟩
    · show (q.course x s 0).memory.heap.cells[x.heap.cells.size]? = _
      rw [hbegun]
      exact contextOf_object q.seed x.heap
    · obtain ⟨i, hi, harrives, hbefore⟩ := course_calling h
      exact ⟨i, hi, harrives, hbefore ▸ course_stored hn h hj⟩
    · exact (course_bodies hn k hb).gathers
    · have hholding := course_bodies hn k fun l' hl' => hb l' (List.mem_append_left _ hl')
      have hl : bindsOnly l.node = true := hb l (List.mem_append_right _ (Option.mem_toList.mpr hleg))
      cases course_advances (q := q) (x := x) (s := s) k with
      | rests hnone => exact absurd (hnone.symm.trans hleg) (Option.some_ne_none l).symm
      | visits l' hsome hbefore =>
        rw [← hbefore, ← Option.some.inj (hleg.symm.trans hsome)] at hholding
        obtain ⟨hkeeps, hkept⟩ := stepsAt_keeps hl l.before st hst
        exact ⟨(hholding.keeps hkeeps).gathers, (hholding.keeps hkept).gathers⟩

/-- A node that is answered twice, in a run that is given a variable of the name. -/
theorem responses_of_a_loop :
    let start : Node := ⟨"s", .start, .origin, ⟨"Start", none, none, none, none⟩⟩
    let call : Node := ⟨"a", .api, .origin, ⟨"Call", none, none, none, some ⟨"http://x", .get, none, none⟩⟩⟩
    let flow : Flow := ⟨"f", "Loop", none, [start, call], [⟨"c", "s", "a", none⟩, ⟨"d", "a", "a", none⟩]⟩
    let q : Request := ⟨.none, "t", flow, [("responses", .int 5)]⟩
    let x : Executor := .create ⟨.scalar (.int 0), .scalar (.int 10)⟩ ⟨0, []⟩ .empty
    let s : Surroundings := ⟨fun k => .response 200 (if k = 2 then [49] else [50]), fun _ => .ok ()⟩
    Responsive q x s ∧ Stored 0 "a" (.int 2) (q.course x s 3).memory (q.course x s 5).memory ∧
      ∃ members, (q.course x s 5).2.heap.Shows 0 (.ref 0) (.obj members) ∧ members.map (·.1) = ["a"] := by
  intro start call flow q x s
  have hresponsive : Responsive q x s := responses_survive q x s
  have hlegs : ∀ l ∈ q.legs x s 5, bindsOnly l.node = true := by
    intro l hl
    rcases List.mem_pair.mp (legs_enterable 5 l hl).1 with h | h
    · rw [h]
      rfl
    · rw [h]
      rfl
  have hout : (q.course x s 4).1.1 = .going (.calling call (callOf ⟨"http://x", .get, none, none⟩)) := rfl
  have hbody : (Http.settle (callOf ⟨"http://x", .get, none, none⟩) (s.answer 4)).1 = .ok (.int 2) := rfl
  obtain ⟨i, hi, -, hstored⟩ := hresponsive.stored 4 call _ _ hout hbody
  cases hi
  obtain ⟨members, hshows, hnames, -⟩ := hresponsive.gathered 5 hlegs
  have hsucceeded : (q.bodies x s 5).map (·.1) = ["a", "a"] := by decide +kernel
  rw [hsucceeded] at hnames
  exact ⟨hresponsive, hstored, members, hshows, hnames⟩

end Run

end StepFlow
