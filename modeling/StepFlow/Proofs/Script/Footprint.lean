/-
  StepFlow.Proofs.Script.Footprint — a script changes only what it assigns.

  A run of a script is a list of steps (`executed`): statements, each with the memory that it
  finds, up to the first one that fails. A step binds a name (`Statement.binds?`), or enters a
  container: the one that it evaluates the container of its target to (`Step.entered?`).

  Proved, for every text, read-only names and memory, which may be shared and cyclic:
  (1) `execStatement_does`: what one step does. If it fails or assigns nothing, it changes
      nothing; else it binds its name, or changes one entry of the container that it entered.
  (2) `exec_footprint`: what the steps of a run have done, by induction on them.
  (3) `script_changes_only_what_it_assigns`: both for a text, however its run ends.
-/

import StepFlow.Proofs.Script.Purity

namespace StepFlow

/-! ## Entries -/

/-- One entry of the container is assigned a value: an item of a list, or the value of a key of
    an object, which is there or goes last. -/
inductive Cell.Reassigned (v : Value) : Cell → Cell → Prop
  | item (before after : List Value) (w : Value) :
      Reassigned v (.list (before ++ w :: after)) (.list (before ++ v :: after))
  | entry (before after : List (Scalar × Value)) (key : Scalar) (w : Value) :
      Reassigned v (.object (before ++ (key, w) :: after)) (.object (before ++ (key, v) :: after))
  | added (es : List (Scalar × Value)) (key : Scalar) :
      lookupKey es key = none → Reassigned v (.object es) (.object (es ++ [(key, v)]))

/-- A list has kept its length, an object its keys, and has at most so many more. -/
inductive Cell.Kept : Nat → Cell → Cell → Prop
  | list {k : Nat} {xs ys : List Value} : ys.length = xs.length → Kept k (.list xs) (.list ys)
  | object {k : Nat} {es fs : List (Scalar × Value)} (added : List Scalar) :
      fs.map (·.1) = es.map (·.1) ++ added → added.length ≤ k → Kept k (.object es) (.object fs)

theorem Cell.Kept.refl (k : Nat) (c : Cell) : Cell.Kept k c c := by
  cases c with
  | list xs => exact .list rfl
  | object es => exact .object [] (List.append_nil _).symm (Nat.zero_le k)

theorem Cell.Kept.trans {j k : Nat} {c d e : Cell} (hc : Cell.Kept j c d) (hd : Cell.Kept k d e) :
    Cell.Kept (j + k) c e := by
  cases hc with
  | list hx =>
    cases hd with
    | list hy => exact .list (hy.trans hx)
  | object added he hj =>
    cases hd with
    | object added' hf hk =>
      refine .object (added ++ added') ?_ ?_
      · rw [hf, he, List.append_assoc]
      · rw [List.length_append]
        exact Nat.add_le_add hj hk

theorem Cell.Reassigned.kept {v : Value} {c d : Cell} (h : Cell.Reassigned v c d) : Cell.Kept 1 c d := by
  cases h with
  | item before after w => exact .list (by simp)
  | entry before after key w => exact .object [] (by simp) (Nat.zero_le 1)
  | added es key _ => exact .object [key] (by simp) (Nat.le_refl 1)

theorem assignKey_reassigned (es : List (Scalar × Value)) (key : Scalar) (v : Value) :
    Cell.Reassigned v (.object es) (.object (assignKey es key v)) := by
  -- the entries before the one that is assigned, which have other keys
  have hsplit : assignKey es key v = es ++ [(key, v)] ∧ lookupKey es key = none ∨
      ∃ before key' w after, es = before ++ (key', w) :: after ∧ assignKey es key v = before ++ (key', v) :: after := by
    induction es with
    | nil => exact .inl ⟨rfl, rfl⟩
    | cons e es ih =>
      obtain ⟨key', w⟩ := e
      unfold lookupKey at ih ⊢
      rw [assignKey, List.find?_cons]
      cases hsame : key'.same key with
      | true => exact .inr ⟨[], key', w, es, rfl, rfl⟩
      | false =>
        rcases ih with ⟨heq, hnone⟩ | ⟨before, key'', w', after, hes, heq⟩
        · exact .inl ⟨congrArg (List.cons (key', w)) heq, hnone⟩
        · exact .inr ⟨(key', w) :: before, key'', w', after, congrArg (List.cons (key', w)) hes,
            congrArg (List.cons (key', w)) heq⟩
  rcases hsplit with ⟨heq, hnone⟩ | ⟨before, key', w, after, rfl, heq⟩
  · rw [heq]
    exact .added es key hnone
  · rw [heq]
    exact .entry before after key' w

theorem set_reassigned {xs : List Value} {n : Nat} (hn : n < xs.length) (v : Value) :
    Cell.Reassigned v (.list xs) (.list (xs.set n v)) := by
  have hitem := Cell.Reassigned.item (v := v) (xs.take n) (xs.drop (n + 1)) xs[n]
  have hsplit : xs.take n ++ xs[n] :: xs.drop (n + 1) = xs := by simp
  rw [hsplit] at hitem
  rwa [List.set_eq_take_append_cons_drop, if_pos hn]

theorem write_other {h : Heap} {q r : Ref} (c : Cell) (hne : q ≠ r) : (h.write r c).cells[q]? = h.cells[q]? :=
  Array.getElem?_setIfInBounds_ne (Ne.symm hne)

/-! ## Steps -/

/-- The name that a statement assigns to. -/
def Statement.binds? : Statement → Option String
  | .assign (.name n) _ _ => some n
  | _ => none

/-- The container of a target: what it is a property or an entry of. -/
def Target.container? : Target → Option Expr
  | .name _ => none
  | .member obj _ | .index obj _ => some obj

namespace Script

open Exec

/-- A statement that is executed, and the memory that it finds. -/
structure Step where
  statement : Statement
  before : Memory

/-- The steps of a run: the statements up to the first one that fails, with it. -/
def executed (readonly : List String) : List Statement → Memory → List Step
  | [], _ => []
  | s :: ss, m =>
    ⟨s, m⟩ :: match (execStatement readonly s).run m with
      | (.ok (), n) => executed readonly ss n
      | (.error _, _) => []

/-- The steps of a text. One that is no script has none. -/
def executedOf (text : String) (readonly : List String) (m : Memory) : List Step :=
  match parseScript text with
  | .ok ss => executed readonly ss m
  | .error _ => []

namespace Step

/-- The container that an assignment evaluates that of its target to, if it comes that far. -/
def entered? (s : Step) : Option Ref :=
  match s.statement with
  | .expr _ => none
  | .assign target op value =>
    match target.container? with
    | none => none
    | some obj =>
      match (do let _ ← assigned target op value; onHeap (eval · obj) : Exec Value).run s.before with
      | (.ok (.ref r), _) => some r
      | _ => none

def after (readonly : List String) (s : Step) : Except Fault Unit × Memory :=
  (execStatement readonly s.statement).run s.before

/-- What a step does. What it has evaluated before it writes has changed nothing (`Memory.Keeps`). -/
inductive Does (readonly : List String) (s : Step) : Except Fault Unit × Memory → Prop
  | fails (f : Fault) {n : Memory} : s.before.Keeps n → Does readonly s (.error f, n)
  | evaluates {e : Expr} {n : Memory} : s.statement = .expr e → s.before.Keeps n → Does readonly s (.ok (), n)
  | binds {x : String} {v : Value} {n : Memory} : s.statement.binds? = some x → x ∉ readonly → s.before.Keeps n →
      Does readonly s (.ok (), { n with env := n.env.set x v })
  | writes {r : Ref} {v : Value} {c : Cell} {n : Memory} : s.entered? = some r → s.before.Keeps n →
      Cell.Reassigned v (n.heap.cell r) c → Does readonly s (.ok (), { n with heap := n.heap.write r c })

end Step

theorem Exec.Quiet.run_cases {α : Type} {a : Exec α} (ha : Quiet a) (m : Memory) :
    (∃ f n, a.run m = (.error f, n) ∧ m.Keeps n) ∨ ∃ x n, a.run m = (.ok x, n) ∧ m.Keeps n := by
  have hk := ha m
  generalize a.run m = r at hk ⊢
  obtain ⟨f | x, n⟩ := r
  · exact .inl ⟨f, n, rfl, hk⟩
  · exact .inr ⟨x, n, rfl, hk⟩

/-- What storing in a container does. -/
inductive Stores (v container : Value) (m : Memory) : Except Fault Unit × Memory → Prop
  | fails (f : Fault) {n : Memory} : m.Keeps n → Stores v container m (.error f, n)
  | writes {r : Ref} {c : Cell} : container = .ref r → Cell.Reassigned v (m.heap.cell r) c →
      Stores v container m (.ok (), { m with heap := m.heap.write r c })

theorem storeProperty_run (r : Ref) (name : String) (v : Value) (m : Memory) :
    (storeProperty (.ref r) name v).run m = (match m.heap.cell r with
      | .object es => write r (.object (assignKey es (.str name) v))
      | .list _ => throw (.run (.propertyTarget name .list)) : Exec Unit).run m := rfl

theorem storeProperty_stores (container : Value) (name : String) (v : Value) (m : Memory) :
    Stores v container m ((storeProperty container name v).run m) := by
  cases container with
  | scalar s => exact .fails _ (.refl m)
  | ref r =>
    rw [storeProperty_run]
    cases hc : m.heap.cell r with
    | list xs => exact .fails _ (.refl m)
    | object es => exact .writes rfl (hc ▸ assignKey_reassigned es _ v)

theorem place?_lt {length n : Nat} {i : Int} (h : place? length i = some n) : n < length := by
  unfold place? at h
  split at h
  · split at h
    · cases h
      omega
    · cases h
  · split at h
    · cases h
      omega
    · cases h

theorem outOfRange_run (i : Int) (m : Memory) :
    ∃ f, (onHeap fun _ => (outOfRange i : Act Fault Unit)).run m = (.error f, m) := by
  unfold outOfRange
  split
  · exact ⟨_, rfl⟩
  · exact ⟨_, rfl⟩

theorem indexOf_run (key : Value) (m : Memory) :
    (∃ i, (onHeap fun _ => indexOf key).run m = (.ok i, m)) ∨
      ∃ f, (onHeap fun _ => indexOf key).run m = (.error f, m) := by
  unfold indexOf
  split
  · exact .inl ⟨_, rfl⟩
  · exact .inr ⟨_, rfl⟩

theorem storeIndex_run (r : Ref) (key v : Value) (m : Memory) :
    (storeIndex (.ref r) key v).run m = (match m.heap.cell r with
      | .object es => match key with
        | .scalar k => write r (.object (assignKey es k v))
        | .ref _ => throw (.run (.keyType (m.heap.kind key)))
      | .list xs => do
        let i ← onHeap fun _ => indexOf key
        match place? xs.length i with
        | some n => write r (.list (xs.set n v))
        | none => onHeap fun _ => outOfRange i : Exec Unit).run m := rfl

theorem storeIndex_stores (container key v : Value) (m : Memory) :
    Stores v container m ((storeIndex container key v).run m) := by
  cases container with
  | scalar s => exact .fails _ (.refl m)
  | ref r =>
    rw [storeIndex_run]
    cases hc : m.heap.cell r with
    | object es =>
      cases key with
      | ref q => exact .fails _ (.refl m)
      | scalar k => exact .writes rfl (hc ▸ assignKey_reassigned es k v)
    | list xs =>
      dsimp only
      rw [bind_run]
      rcases indexOf_run key m with ⟨i, hi⟩ | ⟨f, hf⟩
      · rw [hi]
        dsimp only
        cases hn : place? xs.length i with
        | some n => exact .writes rfl (hc ▸ set_reassigned (place?_lt hn) v)
        | none =>
          obtain ⟨f, hf⟩ := outOfRange_run i m
          dsimp only
          rw [hf]
          exact .fails f (.refl m)
      · rw [hf]
        exact .fails f (.refl m)

theorem Stores.does {target : Target} {op : AssignOp} {value obj : Expr} {m k l n : Memory} {v container : Value}
    {o : Except Fault Unit × Memory} (readonly : List String) (hs : Stores v container n o)
    (htarget : target.container? = some obj) (hvalue : (assigned target op value).run m = (.ok v, k))
    (hobj : (onHeap (eval · obj)).run k = (.ok container, l)) (hk : m.Keeps n) :
    Step.Does readonly ⟨.assign target op value, m⟩ o := by
  cases hs with
  | fails f hn => exact .fails f (hk.trans hn)
  | @writes r c hr hw =>
    subst hr
    have hentered : Step.entered? ⟨.assign target op value, m⟩ = some r := by
      simp only [Step.entered?, htarget, bind_run, hvalue, hobj]
    exact .writes hentered hk hw

/-- Everything is evaluated first, and then stored. -/
theorem execStatement_does (readonly : List String) (s : Step) : s.Does readonly (s.after readonly) := by
  obtain ⟨statement, m⟩ := s
  unfold Step.after execStatement
  cases statement with
  | expr e =>
    dsimp only
    rw [bind_run]
    rcases (eval_quiet e).run_cases m with ⟨f, n, hr, hk⟩ | ⟨v, n, hr, hk⟩
    · rw [hr]
      exact .fails f hk
    · rw [hr]
      exact .evaluates rfl hk
  | assign target op value =>
    dsimp only
    rw [bind_run]
    rcases (assigned_quiet target op value).run_cases m with ⟨f, k, hr, hk⟩ | ⟨v, k, hr, hk⟩
    · rw [hr]
      exact .fails f hk
    rw [hr]
    dsimp only
    unfold store
    cases target with
    | name x =>
      dsimp only
      unfold Script.bind
      by_cases hx : readonly.contains x = true
      · rw [if_pos hx]
        exact .fails _ hk
      · rw [if_neg hx]
        exact .binds rfl (fun hmem => hx (List.contains_iff_mem.mpr hmem)) hk
    | member obj x =>
      dsimp only
      rw [bind_run]
      rcases (eval_quiet obj).run_cases k with ⟨f, l, hc, hl⟩ | ⟨c, l, hc, hl⟩
      · rw [hc]
        exact .fails f (hk.trans hl)
      · rw [hc]
        exact (storeProperty_stores c x v l).does readonly rfl hr hc (hk.trans hl)
    | index obj key =>
      dsimp only
      rw [bind_run]
      rcases (eval_quiet obj).run_cases k with ⟨f, l, hc, hl⟩ | ⟨c, l, hc, hl⟩
      · rw [hc]
        exact .fails f (hk.trans hl)
      · rw [hc]
        dsimp only
        rw [bind_run]
        rcases (eval_quiet key).run_cases l with ⟨f, n, hi, hn⟩ | ⟨i, n, hi, hn⟩
        · rw [hi]
          exact .fails f ((hk.trans hl).trans hn)
        · rw [hi]
          exact (storeIndex_stores c i v n).does readonly rfl hr hc ((hk.trans hl).trans hn)

/-! ## Runs -/

/-- What steps have done to the first so many containers. -/
structure Touched (steps : List Step) (bound : Nat) (h k : Heap) : Prop where
  /-- A container that no step enters is as it was. -/
  unentered (r : Ref) : r < bound → (∀ s ∈ steps, s.entered? ≠ some r) → k.cells[r]? = h.cells[r]?
  kept (r : Ref) : r < bound → Cell.Kept (steps.countP (·.entered? == some r)) (h.cell r) (k.cell r)

namespace Touched

variable {steps steps' : List Step} {bound : Nat} {h k l : Heap}

theorem of_same (hs : ∀ r < bound, k.cells[r]? = h.cells[r]?) : Touched steps bound h k where
  unentered r hr _ := hs r hr
  kept r hr := by
    rw [cell_eq_of_getElem? (hs r hr)]
    exact .refl _ _

theorem trans (hh : Touched steps bound h k) (hk : Touched steps' bound k l) :
    Touched (steps ++ steps') bound h l where
  unentered r hr he := by
    rw [hk.unentered r hr fun s hs => he s (List.mem_append_right _ hs),
      hh.unentered r hr fun s hs => he s (List.mem_append_left _ hs)]
  kept r hr := by
    rw [List.countP_append]
    exact (hh.kept r hr).trans (hk.kept r hr)

theorem mono {bound' : Nat} (ht : Touched steps bound h k) (hb : bound' ≤ bound) : Touched steps bound' h k where
  unentered r hr := ht.unentered r (Nat.lt_of_lt_of_le hr hb)
  kept r hr := ht.kept r (Nat.lt_of_lt_of_le hr hb)

theorem write {s : Step} {v : Value} {r : Ref} {c : Cell} (he : s.entered? = some r)
    (hc : Cell.Reassigned v (h.cell r) c) : Touched [s] h.cells.size h (h.write r c) := by
  refine ⟨fun q _ hq => write_other (r := r) c ?_, fun q hq => ?_⟩
  · rintro rfl
    exact hq s (List.mem_singleton_self s) he
  · by_cases heq : q = r
    · subst heq
      have hcell : (h.write q c).cell q = c := by simp [Heap.write, Heap.cell, hq]
      have hone : [s].countP (·.entered? == some q) = 1 := by simp [he]
      rw [hcell, hone]
      exact hc.kept
    · rw [cell_eq_of_getElem? (write_other c heq)]
      exact .refl _ _

end Touched

/-- What the steps of a run have done. -/
structure Footprint (readonly : List String) (steps : List Step) (m n : Memory) : Prop extends
    Touched steps m.heap.cells.size m.heap n.heap where
  size : m.heap.cells.size ≤ n.heap.cells.size
  /-- A name that no step binds stands for what it did. -/
  unbound (x : String) : (∀ s ∈ steps, s.statement.binds? ≠ some x) → n.env.get? x = m.env.get? x
  readonly (x : String) : x ∈ readonly → n.env.get? x = m.env.get? x
  /-- Names stay, in their order; new ones, which steps have bound, come after them. -/
  names : ∃ added, n.env.map (·.1) = m.env.map (·.1) ++ added ∧
    ∀ x ∈ added, ∃ s ∈ steps, s.statement.binds? = some x

namespace Footprint

variable {readonly : List String} {steps steps' : List Step} {m n o : Memory}

/-- Only containers may have changed. -/
theorem of_touched (ht : Touched steps m.heap.cells.size m.heap n.heap)
    (hs : m.heap.cells.size ≤ n.heap.cells.size) (he : n.env = m.env) : Footprint readonly steps m n where
  toTouched := ht
  size := hs
  unbound x _ := by rw [he]
  readonly x _ := by rw [he]
  names := ⟨[], by rw [he, List.append_nil], List.forall_mem_nil _⟩

theorem of_keeps (hk : m.Keeps n) : Footprint readonly steps m n :=
  of_touched (.of_same hk.heap) hk.heap.size_le hk.env

theorem trans (hm : Footprint readonly steps m n) (hn : Footprint readonly steps' n o) :
    Footprint readonly (steps ++ steps') m o where
  toTouched := hm.toTouched.trans (hn.toTouched.mono hm.size)
  size := Nat.le_trans hm.size hn.size
  unbound x hx := by
    rw [hn.unbound x fun s hs => hx s (List.mem_append_right _ hs),
      hm.unbound x fun s hs => hx s (List.mem_append_left _ hs)]
  readonly x hx := by rw [hn.readonly x hx, hm.readonly x hx]
  names := by
    obtain ⟨xs, hxs, hx⟩ := hm.names
    obtain ⟨ys, hys, hy⟩ := hn.names
    refine ⟨xs ++ ys, by rw [hys, hxs, List.append_assoc], fun x hmem => ?_⟩
    rcases List.mem_append.mp hmem with hmem | hmem
    · obtain ⟨s, hs, hb⟩ := hx x hmem
      exact ⟨s, List.mem_append_left _ hs, hb⟩
    · obtain ⟨s, hs, hb⟩ := hy x hmem
      exact ⟨s, List.mem_append_right _ hs, hb⟩

end Footprint

theorem Env.names_set (env : Env) (x : String) (v : Value) :
    (env.set x v).map (·.1) = env.map (·.1) ∨ (env.set x v).map (·.1) = env.map (·.1) ++ [x] := by
  induction env with
  | nil => exact .inr rfl
  | cons b env ih =>
    obtain ⟨y, w⟩ := b
    unfold Env.set
    split
    · exact .inl rfl
    · rcases ih with ih | ih
      · exact .inl (congrArg (List.cons y) ih)
      · exact .inr (congrArg (List.cons y) ih)

theorem Step.Does.footprint {readonly : List String} {s : Step} {o : Except Fault Unit × Memory}
    (h : s.Does readonly o) : Footprint readonly [s] s.before o.2 := by
  cases h with
  | fails f hk => exact .of_keeps hk
  | evaluates _ hk => exact .of_keeps hk
  | @binds x v n hb hro hk =>
    have hset : Footprint readonly [s] n { n with env := n.env.set x v } := by
      refine ⟨.of_same fun _ _ => rfl, Nat.le_refl _, fun y hy => ?_, fun y hy => ?_, ?_⟩
      · have hne : y ≠ x := by
          rintro rfl
          exact hy s (List.mem_singleton_self s) hb
        rw [Env.get?_set, if_neg hne]
      · have hne : y ≠ x := by
          rintro rfl
          exact hro hy
        rw [Env.get?_set, if_neg hne]
      · rcases Env.names_set n.env x v with hx | hx
        · exact ⟨[], by rw [hx, List.append_nil], List.forall_mem_nil _⟩
        · refine ⟨[x], hx, fun y hy => ⟨s, List.mem_singleton_self s, ?_⟩⟩
          rw [hb, List.mem_singleton.mp hy]
    exact (Footprint.of_keeps hk : Footprint readonly [] s.before n).trans hset
  | @writes r v c n he hk hw =>
    have hwrite : Footprint readonly [s] n { n with heap := n.heap.write r c } :=
      .of_touched (.write he hw) (Nat.le_of_eq Array.size_setIfInBounds.symm) rfl
    exact (Footprint.of_keeps hk : Footprint readonly [] s.before n).trans hwrite

theorem exec_footprint (readonly : List String) (ss : List Statement) (m : Memory) :
    Footprint readonly (executed readonly ss m) m ((exec readonly ss).run m).2 := by
  induction ss generalizing m with
  | nil => exact .of_keeps (.refl m)
  | cons s ss ih =>
    have hs := (execStatement_does readonly ⟨s, m⟩).footprint
    rw [executed, exec, bind_run]
    unfold Step.after at hs
    dsimp only at hs
    generalize (execStatement readonly s).run m = o at hs ⊢
    obtain ⟨f | u, n⟩ := o
    · exact hs
    · exact hs.trans (ih n)

theorem execute_footprint (text : String) (readonly : List String) (m : Memory) :
    Footprint readonly (executedOf text readonly m) m (execute text readonly m).2 := by
  unfold executedOf execute
  cases parseScript text with
  | error f => exact .of_keeps (.refl m)
  | ok ss => exact exec_footprint readonly ss m

/-- The steps of a run are its statements in turn, and all of them unless one has failed. -/
theorem executed_statements (readonly : List String) (ss : List Statement) (m : Memory) :
    (executed readonly ss m).map (·.statement) <+: ss ∧
      (((exec readonly ss).run m).1 = .ok () → (executed readonly ss m).map (·.statement) = ss) := by
  induction ss generalizing m with
  | nil => exact ⟨List.prefix_rfl, fun _ => rfl⟩
  | cons s ss ih =>
    rw [executed, exec, bind_run]
    generalize (execStatement readonly s).run m = o
    obtain ⟨f | u, n⟩ := o
    · exact ⟨⟨ss, rfl⟩, fun h => by cases h⟩
    · exact ⟨List.prefix_cons_inj s |>.mpr (ih n).1, fun h => congrArg (List.cons s) ((ih n).2 h)⟩

/-- A step that has entered a container and does not fail changes one entry of it, and nothing else. -/
theorem Step.Does.entered {readonly : List String} {s : Step} {o : Except Fault Unit × Memory}
    (h : s.Does readonly o) {r : Ref} (hr : s.entered? = some r) :
    (∃ f n, o = (.error f, n) ∧ s.before.Keeps n) ∨
      ∃ n v c, s.before.Keeps n ∧ Cell.Reassigned v (n.heap.cell r) c ∧
        o = (.ok (), { n with heap := n.heap.write r c }) := by
  cases h with
  | @fails f n hk => exact .inl ⟨f, n, rfl, hk⟩
  | evaluates hs _ =>
    unfold Step.entered? at hr
    rw [hs] at hr
    cases hr
  | binds hb _ _ =>
    obtain ⟨statement, m⟩ := s
    cases statement with
    | expr e => cases hb
    | assign target op value =>
      cases target with
      | name x => cases hr
      | member obj x => cases hb
      | index obj key => cases hb
  | @writes q v c n he hk hw =>
    cases he.symm.trans hr
    exact .inr ⟨n, v, c, hk, hw, rfl⟩

/-- The steps of a text are statements of its script, in turn, all of them if it succeeds. Their
    footprint is all that they have done in the end, however that is; and each of them that has
    entered a container fails and changes nothing, or changes one entry of that container. -/
theorem script_changes_only_what_it_assigns (text : String) (readonly : List String) (m : Memory) :
    (∀ ss, parseScript text = .ok ss → (executedOf text readonly m).map (·.statement) <+: ss ∧
      ((execute text readonly m).1 = .ok () → (executedOf text readonly m).map (·.statement) = ss)) ∧
    Footprint readonly (executedOf text readonly m) m (execute text readonly m).2 ∧
    ∀ s ∈ executedOf text readonly m, ∀ r, s.entered? = some r →
      (∃ f n, s.after readonly = (.error f, n) ∧ s.before.Keeps n) ∨
        ∃ n v c, s.before.Keeps n ∧ Cell.Reassigned v (n.heap.cell r) c ∧
          s.after readonly = (.ok (), { n with heap := n.heap.write r c }) := by
  refine ⟨fun ss hp => ?_, execute_footprint text readonly m, fun s _ r hr =>
    (execStatement_does readonly s).entered hr⟩
  unfold executedOf execute
  rw [hp]
  exact executed_statements readonly ss m

theorem aliased_write_then_read_only_name :
    let text := "y[1] = 2; z = [w]; w = x"
    let m : Memory := ⟨[("x", .ref 0), ("y", .ref 0), ("w", .ref 1)], ⟨#[.list [.ref 0, .int 1], .list [.int 3]], 1⟩⟩
    let n : Memory := ⟨m.env ++ [("z", .ref 2)], ⟨#[.list [.ref 0, .int 2], .list [.int 3], .list [.ref 1]], 1⟩⟩
    execute text ["w"] m = (.error (.run (.readOnly "w")), n) ∧ (executedOf text ["w"] m).length = 3 ∧
    n.env.get? "x" = m.env.get? "x" ∧ n.env.get? "w" = m.env.get? "w" ∧ n.heap.cells[1]? = m.heap.cells[1]? ∧
    Cell.Kept 1 (m.heap.cell 0) (n.heap.cell 0) ∧ ∃ k v c, m.Keeps k ∧ Cell.Reassigned v (k.heap.cell 0) c := by
  intro text m n
  let first : Statement := .assign (.index (.name "y") (.literal (.int 1))) .set (.literal (.int 2))
  let second : Statement := .assign (.name "z") .set (.list [.name "w"])
  let third : Statement := .assign (.name "w") .set (.name "x")
  let k : Memory := ⟨m.env, ⟨#[.list [.ref 0, .int 2], .list [.int 3]], 1⟩⟩
  have hp : parseScript text = .ok [first, second, third] := by cbv
  have hsteps : executedOf text ["w"] m = [⟨first, m⟩, ⟨second, k⟩, ⟨third, n⟩] := by
    unfold executedOf
    rw [hp]
    rfl
  have hrun : execute text ["w"] m = (.error (.run (.readOnly "w")), n) := by
    unfold execute
    rw [hp]
    rfl
  obtain ⟨-, hfoot, heach⟩ := script_changes_only_what_it_assigns text ["w"] m
  rw [hrun, hsteps] at hfoot
  rw [hsteps] at heach
  have hentered : Step.entered? ⟨first, m⟩ = some 0 := by rfl
  refine ⟨hrun, by rw [hsteps]; rfl, hfoot.unbound "x" ?_, hfoot.readonly "w" (List.mem_singleton_self _),
    hfoot.unentered 1 (by decide) ?_, hfoot.kept 0 (by decide), ?_⟩
  · intro s hs
    fin_cases hs <;> simp [Statement.binds?, first, second, third]
  · intro s hs
    fin_cases hs
    · rw [hentered]
      decide
    · exact (Option.some_ne_none 1).symm
    · exact (Option.some_ne_none 1).symm
  · rcases heach ⟨first, m⟩ List.mem_cons_self 0 hentered with ⟨f, n, hf, -⟩ | ⟨l, v, c, hk, hw, -⟩
    · cases hf
    · exact ⟨l, v, c, hk, hw⟩

end Script

end StepFlow
