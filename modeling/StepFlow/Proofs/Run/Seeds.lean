/-
  StepFlow.Proofs.Run.Seeds — what a run leaves of the containers that it is given.

  The variables of a run are a copy of its caller's, but what they stand for is shared: a
  container that the caller holds is the one that scripts enter. Only the object for the
  responses is new, and scripts cannot bind its name, so answers are stored in no other.

  Proved, for every request, executor and surroundings, and any number of turns:
  (1) `run_leaves`, `resume_leaves`: what a part of a handler does to the first containers.
  (2) `course_leaves`: what the visits of a run have done, by induction on its turns.
  (3) `seeds_change_where_scripts_enter`: so the containers that were there change where the
      steps of its scripts enter them, and nowhere else. If all scripts of the flow assign to
      names only, none does.
  (4) `counting_twice_from_one_seed`: other scripts do change the caller's variables, so that
      two runs of one flow with the same ones end differently.
-/

import StepFlow.Proofs.Json.Shown
import StepFlow.Proofs.Run.Logbook
import StepFlow.Proofs.Script.Footprint

namespace StepFlow

namespace Run

open Script (Memory Step Touched)

/-! ## Parts of handlers -/

/-- The steps of the script of a node, if it is one that runs a script. -/
def stepsAt (n : Node) (m : Memory) : List Step :=
  match n.type, nonblank? n.data.script with
  | .script, some text => Script.executedOf text readonlyNames m
  | _, _ => []

/-- What is left of a memory, when steps have been done in its first so many containers. -/
structure Leaves (steps : List Step) (bound : Nat) (m n : Memory) : Prop extends
    Touched steps bound m.heap n.heap where
  size : m.heap.cells.size ≤ n.heap.cells.size
  responses : n.env.get? responsesName = m.env.get? responsesName

/-- The object for the responses is the one after the first so many containers. -/
structure Apart (bound : Nat) (m : Memory) : Prop where
  size : bound < m.heap.cells.size
  responses : m.env.get? responsesName = some (.ref bound)

section

variable {steps steps' : List Step} {bound : Nat} {m n o : Memory}

theorem Leaves.of_keeps (hk : m.Keeps n) (hb : bound ≤ m.heap.cells.size) : Leaves steps bound m n where
  toTouched := .of_same fun r hr => hk.heap r (Nat.lt_of_lt_of_le hr hb)
  size := hk.heap.size_le
  responses := by rw [hk.env]

theorem Leaves.trans (hm : Leaves steps bound m n) (hn : Leaves steps' bound n o) :
    Leaves (steps ++ steps') bound m o where
  toTouched := hm.toTouched.trans hn.toTouched
  size := Nat.le_trans hm.size hn.size
  responses := hn.responses.trans hm.responses

theorem Leaves.apart (h : Leaves steps bound m n) (hm : Apart bound m) : Apart bound n where
  size := Nat.lt_of_lt_of_le hm.size h.size
  responses := h.responses.trans hm.responses

theorem contextOf_apart (seed : Env) (h : Heap) : Apart h.cells.size (contextOf seed h) where
  size := by simp [contextOf, Heap.alloc]
  responses := by
    unfold contextOf
    rw [Env.get?_set, if_pos rfl]
    rfl

end

section

variable {bound : Nat} {m : Memory}

theorem script_leaves {n : Node} (ht : n.type = .script) (hb : bound ≤ m.heap.cells.size) :
    Leaves (stepsAt n m) bound m (Handler.script n m).memory := by
  unfold Handler.script stepsAt
  rw [ht]
  cases nonblank? n.data.script with
  | none => exact .of_keeps (.refl m) hb
  | some text =>
    have hf := Script.execute_footprint text readonlyNames m
    dsimp only
    generalize Script.execute text readonlyNames m = r at hf ⊢
    have hleaves : Leaves (Script.executedOf text readonlyNames m) bound m r.2 :=
      ⟨hf.toTouched.mono hb, hf.size, hf.readonly _ (List.mem_singleton_self _)⟩
    obtain ⟨f | u, m'⟩ := r
    · exact hleaves
    · exact hleaves

theorem run_leaves (n : Node) (hb : bound ≤ m.heap.cells.size) :
    Leaves (stepsAt n m) bound m (Handler.run n m).memory := by
  unfold Handler.run
  cases ht : n.type with
  | start | task | finish => exact .of_keeps (.refl m) hb
  | script => exact script_leaves ht hb
  | decision => exact .of_keeps (Script.decision_keeps n m) hb
  | api =>
    have hapi : (Handler.api n m).memory = m := by
      unfold Handler.api
      cases n.data.apiConfig <;> rfl
    dsimp only
    rw [hapi]
    exact .of_keeps (.refl m) hb

/-- An answer is stored in the object for the responses. -/
theorem store_leaves {steps : List Step} (id : String) (v : Value) (ha : Apart bound m) :
    Leaves steps bound m (Handler.store m id v) := by
  unfold Handler.store
  rw [ha.responses]
  dsimp only
  split
  · refine ⟨.of_same fun r hr => write_other _ (Nat.ne_of_lt hr), ?_, rfl⟩
    exact Nat.le_of_eq Array.size_setIfInBounds.symm
  · exact .of_keeps (.refl m) (Nat.le_of_lt ha.size)

theorem resume_leaves {steps : List Step} (n : Node) (c : Http.Call) (a : Http.Answer) (ha : Apart bound m) :
    Leaves steps bound m (Handler.resume n c a m).memory := by
  unfold Handler.resume
  split
  · rename_i j notices _
    have hk : m.Keeps { m with heap := (m.heap.ofJson j).2 } := ⟨rfl, m.heap.ofJson_keeps j⟩
    have hjson : Leaves [] bound m { m with heap := (m.heap.ofJson j).2 } := .of_keeps hk (Nat.le_of_lt ha.size)
    exact hjson.trans (store_leaves n.id _ (hjson.apart ha))
  · exact .of_keeps (.refl m) (Nat.le_of_lt ha.size)

end

/-! ## Turns -/

/-- The variables and the containers that a run has. -/
def Standing.memory (m : Standing) : Memory := ⟨m.1.2.env, m.2.heap⟩

/-- The steps of the scripts that a run has visited after that many turns. -/
def Request.steps (q : Request) (x : Executor) (s : Surroundings) (k : Nat) : List Step :=
  (q.legs x s k).flatMap fun l => stepsAt l.node l.before

theorem Goes.memory {w : Walk} {x : Executor} {r : Standing} {way : Way} (h : Goes w x r way) :
    Standing.memory r = ⟨w.env, x.heap⟩ := by
  cases h with
  | ends hc => exact congrArg (Memory.mk w.env) hc.keeps.heap
  | onto _ hk => exact congrArg (Memory.mk w.env) hk.heap
  | raises _ hc => exact congrArg (Memory.mk w.env) hc.keeps.heap

theorem Turns.leaves {w : Walk} {x : Executor} {stage : Stage} {e : Event} {s : Surroundings} {k bound : Nat}
    {r : Standing} (ht : Turns w x stage e r) (ha : Apart bound ⟨w.env, x.heap⟩) :
    Leaves ((Standing.leg? ((.going stage, w), x) s k).toList.flatMap fun l => stepsAt l.node l.before) bound
      ⟨w.env, x.heap⟩ r.memory := by
  have hb := Nat.le_of_lt ha.size
  cases ht with
  | barred _ hg =>
    rw [hg.memory]
    exact .of_keeps (.refl _) hb
  | @calls n c y _ hr hk =>
    have hmemory : Standing.memory ((.going (.calling n c), (w.executing n).handled n (Handler.run n ⟨w.env, x.heap⟩)),
        y) = (Handler.run n ⟨w.env, x.heap⟩).memory := congrArg (Memory.mk _) hk.heap
    rw [hmemory, calls_memory hr]
    exact .of_keeps (.refl _) hb
  | @visits n r hbar hr hg =>
    have hmemory : r.memory = (Handler.run n ⟨w.env, x.heap⟩).memory := hg.memory
    rw [hmemory, leg?_visits hbar hr, Option.toList_some, List.flatMap_singleton]
    exact run_leaves n hb
  | @resumes n c a r hg =>
    have hmemory : r.memory = (Handler.resume n c a ⟨w.env, x.heap⟩).memory := hg.memory
    rw [hmemory]
    exact resume_leaves n c a ha
  | wakes => exact .of_keeps (.refl _) hb
  | @disturbed n seconds c y hc =>
    have hmemory : Standing.memory ((.ended (.raised c), w.left), y) = ⟨w.env, x.heap⟩ :=
      congrArg (Memory.mk w.env) hc.keeps.heap
    rw [hmemory]
    exact .of_keeps (.refl _) hb

/-! ## Courses -/

section

variable {q : Request} {x : Executor} {s : Surroundings}

theorem course_leaves {n : Node} (hn : q.flow.startNode? = some n) (k : Nat) :
    Leaves (q.steps x s k) x.heap.cells.size (contextOf q.seed x.heap) (q.course x s k).memory := by
  have hseed := contextOf_apart q.seed x.heap
  induction k with
  | zero =>
    rcases begun_cases q x with ⟨hnone, -⟩ | ⟨m, y, -, hy, hk⟩
    · rw [hn] at hnone
      cases hnone
    · have hmemory : (q.course x s 0).memory = contextOf q.seed x.heap := by
        rw [Request.course, hy]
        exact congrArg (Memory.mk _) hk.heap
      rw [hmemory]
      exact .of_keeps (.refl _) (Nat.le_of_lt hseed.size)
  | succ k ih =>
    cases hk : (q.course x s k).1.1 with
    | ended e =>
      rw [Request.steps, legs_ended hk, ← Request.steps, course_ended q s hk]
      exact ih
    | going stage =>
      have hturns := course_turns hk
      have happart := ih.apart hseed
      have hsteps : q.steps x s (k + 1) = q.steps x s k ++
          ((q.course x s k).leg? s k).toList.flatMap fun l => stepsAt l.node l.before := by
        rw [Request.steps, Request.legs, List.flatMap_append]
        rfl
      rw [hsteps]
      refine ih.trans ?_
      generalize q.course x s k = m at hk hturns happart ⊢
      obtain ⟨⟨pr, w⟩, y⟩ := m
      cases hk
      exact hturns.leaves happart

theorem course_touched (q : Request) (x : Executor) (s : Surroundings) (k : Nat) :
    Touched (q.steps x s k) x.heap.cells.size x.heap (q.course x s k).2.heap := by
  cases hn : q.flow.startNode? with
  | none =>
    have hheap : (q.course x s k).2.heap = x.heap := by
      rw [(course_stranded hn k).1]
      rcases begun_cases q x with ⟨-, y, hy, hc⟩ | ⟨n, y, hsome, -⟩
      · rw [hy]
        exact hc.keeps.heap
      · rw [hn] at hsome
        cases hsome
    rw [hheap]
    exact .of_same fun _ _ => rfl
  | some n =>
    have hcontext : Touched [] x.heap.cells.size x.heap (contextOf q.seed x.heap).heap :=
      .of_same (Heap.Keeps.alloc x.heap (.object []))
    exact hcontext.trans (course_leaves hn k).toTouched

/-! ## Scripts that assign to names only -/

/-- The statement changes no container. -/
def bindsAtMost : Statement → Bool
  | .expr _ => true
  | .assign target _ _ => target.container?.isNone

/-- A node that has no script of other statements. -/
def bindsOnly (n : Node) : Bool :=
  match n.type, nonblank? n.data.script with
  | .script, some text =>
    match Script.parseScript text with
    | .ok ss => ss.all bindsAtMost
    | .error _ => true
  | _, _ => true

theorem entered?_none {st : Step} (h : bindsAtMost st.statement = true) : st.entered? = none := by
  obtain ⟨statement, m⟩ := st
  cases statement with
  | expr e => rfl
  | assign target op value =>
    have hnone : target.container? = none := Option.isNone_iff_eq_none.mp h
    simp only [Step.entered?, hnone]

theorem stepsAt_unentered {n : Node} (h : bindsOnly n = true) (m : Memory) :
    ∀ st ∈ stepsAt n m, st.entered? = none := by
  unfold bindsOnly at h
  unfold stepsAt
  intro st hst
  split at hst
  · rename_i text ht hs
    rw [ht, hs] at h
    unfold Script.executedOf at hst
    dsimp only at h hst
    cases hp : Script.parseScript text with
    | error f =>
      rw [hp] at hst
      cases hst
    | ok ss =>
      rw [hp] at h hst
      have hmem : st.statement ∈ ss :=
        (Script.executed_statements readonlyNames ss m).1.subset (List.mem_map_of_mem hst)
      exact entered?_none (List.all_eq_true.mp h _ hmem)
  · cases hst

theorem leg?_node {m : Standing} {k : Nat} {l : Leg} (h : m.leg? s k = some l) :
    ∃ stage, m.1.1 = .going stage ∧ stage.node = l.node := by
  unfold Standing.leg? at h
  split at h
  · rename_i n hm
    split at h
    all_goals cases h
    · exact ⟨_, hm, rfl⟩
    · exact ⟨_, hm, rfl⟩
  · rename_i n c hm
    cases h
    exact ⟨_, hm, rfl⟩
  all_goals cases h

/-- A run visits nodes of its flow. -/
theorem legs_enterable (k : Nat) : ∀ l ∈ q.legs x s k, Enterable q.flow l.node := by
  induction k with
  | zero => exact fun l hl => by cases hl
  | succ k ih =>
    intro l hl
    rw [Request.legs] at hl
    rcases List.mem_append.mp hl with hl | hl
    · exact ih l hl
    · obtain ⟨stage, hstage, hnode⟩ := leg?_node (Option.mem_toList.mp hl)
      rw [← hnode]
      exact (course_sound q x s k).place stage hstage

end

/-! ## Runs -/

/-- A run changes the containers that were there where the steps of its scripts enter them, one
    entry for each step, whatever it calls and however it ends. If its scripts assign to names
    only, it changes none. -/
theorem seeds_change_where_scripts_enter (q : Request) (x : Executor) (s : Surroundings) (k : Nat) :
    Touched (q.steps x s k) x.heap.cells.size x.heap (q.course x s k).2.heap ∧
    ((∀ n ∈ q.flow.nodes, bindsOnly n = true) → x.heap.Keeps (q.course x s k).2.heap) := by
  have ht := course_touched q x s k
  refine ⟨ht, fun hflow r hr => ht.unentered r hr fun st hst => ?_⟩
  obtain ⟨l, hl, hmem⟩ := List.mem_flatMap.mp hst
  rw [stepsAt_unentered (hflow l.node (legs_enterable k l hl).1) l.before st hmem]
  exact (Option.some_ne_none r).symm

theorem seed_of_a_script_that_binds :
    let start : Node := ⟨"s", .start, .origin, ⟨"Start", none, none, none, none⟩⟩
    let measure : Node := ⟨"m", .script, .origin, ⟨"Measure", none, some "items = len(items)", none, none⟩⟩
    let q : Request :=
      ⟨.none, "t", ⟨"f", "Measure", none, [start, measure], [⟨"1", "s", "m", none⟩]⟩, [("items", .ref 0)]⟩
    let x : Executor := .create ⟨.scalar (.int 0), .scalar (.int 10)⟩ ⟨0, []⟩ ⟨#[.list [.int 1]], 1⟩
    let s : Surroundings := ⟨fun _ => .failure (.flow ""), fun _ => .ok ()⟩
    (∀ n ∈ q.flow.nodes, bindsOnly n = true) ∧
      Touched (q.steps x s 2) 1 x.heap (q.course x s 2).2.heap ∧ x.heap.Keeps (q.course x s 2).2.heap := by
  intro start measure q x s
  have hmeasure : bindsOnly measure = true := by cbv
  have hplain : ∀ n ∈ q.flow.nodes, bindsOnly n = true :=
    List.forall_mem_cons.mpr ⟨rfl, List.forall_mem_singleton.mpr hmeasure⟩
  obtain ⟨htouched, hkeeps⟩ := seeds_change_where_scripts_enter q x s 2
  exact ⟨hplain, htouched, hkeeps hplain⟩

/-- A script that enters the caller's list. The second run finds what the first one has left there. -/
theorem counting_twice_from_one_seed :
    let start : Node := ⟨"s", .start, .origin, ⟨"Start", none, none, none, none⟩⟩
    let count : Node := ⟨"c", .script, .origin, ⟨"Count", none, some "items[0] += 1", none, none⟩⟩
    let check : Node := ⟨"d", .decision, .origin, ⟨"Check", none, none, some "items[0] == 2", none⟩⟩
    let last : Node := ⟨"e", .finish, .origin, ⟨"End", none, none, none, none⟩⟩
    let flow : Flow := ⟨"f", "Count", none, [start, count, check, last],
      [⟨"1", "s", "c", none⟩, ⟨"2", "c", "d", none⟩, ⟨"3", "d", "e", some "true"⟩]⟩
    let x : Executor := .create ⟨.scalar (.int 0), .scalar (.int 10)⟩ ⟨0, []⟩ ⟨#[.list [.int 1]], 1⟩
    let seed : Env := [("items", .ref 0)]
    ∃ r v again w,
      (runToEnd none .none "t" flow seed).run (World.start x []) = (some (.finished r), v) ∧
      v.executor.heap.cell 0 = .list [.int 2] ∧ r.outcome = .success ∧
      (runToEnd none .none "u" flow seed).run (World.start v.executor []) = (some (.finished again), w) ∧
      again.outcome = .stopped := by
  intro start count check last flow x seed
  let counted : List Statement := [.assign (.index (.name "items") (.literal (.int 0))) .add (.literal (.int 1))]
  let same : Expr := .binary .eq (.index (.name "items") (.literal (.int 0))) (.literal (.int 2))
  have hcounted : Script.parseScript "items[0] += 1" = .ok counted := by cbv
  have hsame : Script.parseExpression "items[0] == 2" = .ok same := by cbv
  -- the variables of a run, when the first item of the seed is this number
  let memory (n : Int) (base : Ref) (cells : List Cell) : Memory :=
    ⟨[("items", .ref 0), ("responses", .ref base)], ⟨⟨.list [.int n] :: cells⟩, 1⟩⟩
  have hcount : ∀ n a base cells, visit count (memory n base cells) a =
      ⟨[], memory (n + 1) base cells, .ok .follow, none⟩ := by
    intro n a base cells
    have hexec : Script.execute "items[0] += 1" readonlyNames (memory n base cells) =
        (.ok (), memory (n + 1) base cells) := by
      unfold Script.execute
      rw [hcounted]
      rfl
    exact visit_script (n := count) a rfl rfl hexec
  have hcheck : ∀ n b base cells, (Script.eval (memory n base cells).env same).run.run (memory n base cells).heap =
      (.ok (.bool b), (memory n base cells).heap) → ∀ a, visit check (memory n base cells) a =
      ⟨[decidedEffect b], memory n base cells, .ok ⟨some (portOf b), false⟩, none⟩ := by
    intro n b base cells hb a
    have heval : (Script.evaluate "items[0] == 2" (memory n base cells).env).run.run (memory n base cells).heap =
        (.ok (.bool b), (memory n base cells).heap) := by
      unfold Script.evaluate
      rw [hsame]
      exact hb
    exact visit_decided (n := check) a rfl rfl heval
  have harrive : ∀ n base cells ls e, Tour x.settings flow 2 check (memory (n + 1) base cells) [] ls e →
      Tour x.settings flow 0 start (memory n base cells) []
        (legAt start (memory n base cells) [] :: legAt count (memory n base cells) [] :: ls) e :=
    fun n base cells ls e h => .pass rfl rfl rfl (.pass rfl (hcount n _ base cells) rfl h)
  have hrun : ∀ (y : Executor) tag m ls e, y.locked = false → y.settings = x.settings → contextOf seed y.heap = m →
      Tour x.settings flow 0 start m [] ls e → ls.length ≤ 10 →
      ∃ v, (runToEnd none .none tag flow seed).run (World.start y []) = (some (.finished (resultOf flow tag ls e)), v) ∧
        Toured none flow m ls (World.start y []) v ∧ v.executor.locked = false := by
    intro y tag m ls e hlock hsettings hm htour hlength
    subst hm
    rw [← hsettings] at htour
    have hmax : y.settings.maxSteps = .scalar (.int 10) := by
      rw [hsettings]
      rfl
    have hpaced : y.settings.Paced none := by
      rw [hsettings]
      exact fun _ => rfl
    exact run_tour (u := World.start y []) none .none tag seed hlock rfl hmax hpaced htour hlength
  have hfirst := harrive 1 1 [.object []] _ (.done last)
    (.pass rfl (hcheck 2 true 1 [.object []] rfl _) rfl (.last rfl rfl))
  obtain ⟨v, hv, htoured, hlock⟩ := hrun x "t" _ _ _ rfl rfl rfl hfirst (by decide)
  have hheap : v.executor.heap = (memory 2 1 [.object []]).heap := htoured.heap
  have hway : (legAt check (memory 3 2 [.object [], .object []]) []).way flow =
      .ends (.unconnected check (some "false")) :=
    congrArg (fun v : Visit => wayFrom flow check v.result) (hcheck 3 false 2 [.object [], .object []] rfl _)
  have hcontext : contextOf seed v.executor.heap = memory 2 2 [.object [], .object []] := by
    rw [hheap]
    rfl
  have hagain := harrive 2 2 [.object [], .object []] _ _ (.last rfl hway)
  obtain ⟨w, hw, -, -⟩ := hrun v.executor "u" _ _ _ hlock htoured.settings hcontext hagain (by decide)
  exact ⟨_, v, _, w, hv, by rw [hheap]; rfl, rfl, hw, rfl⟩

end Run

end StepFlow
