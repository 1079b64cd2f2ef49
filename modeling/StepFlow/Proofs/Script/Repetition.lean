/-
  StepFlow.Proofs.Script.Repetition — what is evaluated again ends as it did before.

  Evaluating changes nothing that there was, but it makes new containers and NaNs each time, so
  the heap is not the one that it was (`Heap.Extends`). If a memory mentions nothing but what
  has been made (`Memory.Closed`), what is made later plays no part for it: all that there was
  stands for itself (`Heap.itself`).
  - A text has no NaN among its literals: numerals are finite or infinite.

  Proved, for every text and every closed memory, which may be shared and cyclic:
  (1) `itself_matches`: its heap matches every one that extends it.
  (2) `parsed_literals`: no literal of an expression that was read is a NaN.
  (3) `evaluate_again`: so an evaluation ends alike on every heap that extends its heap.
-/

import StepFlow.Proofs.Script.Acceptance
import StepFlow.Proofs.Script.Purity

namespace StepFlow

/-! ## What there is -/

namespace Heap

/-- The container or the NaN has been made; other values need not be. -/
def Has (h : Heap) : Value → Prop
  | .ref r => r < h.cells.size
  | .scalar (.nan l) => l < h.nextNan
  | .scalar _ => True

/-- The second heap has all that the first one has, as it was there. -/
structure Extends (h k : Heap) : Prop where
  keeps : h.Keeps k
  labels : h.nextNan ≤ k.nextNan

theorem Extends.refl (h : Heap) : h.Extends h := ⟨.refl h, Nat.le_refl _⟩

theorem Extends.trans {h k l : Heap} (hk : h.Extends k) (hl : k.Extends l) : h.Extends l :=
  ⟨hk.keeps.trans hl.keeps, Nat.le_trans hk.labels hl.labels⟩

theorem extends_alloc (h : Heap) (c : Cell) : h.Extends (h.alloc c).2 := ⟨.alloc h c, Nat.le_refl _⟩

theorem Has.extends {h k : Heap} {v : Value} (hv : h.Has v) (hk : h.Extends k) : k.Has v := by
  cases v with
  | ref r => exact Nat.lt_of_lt_of_le hv hk.keeps.size_le
  | scalar s =>
    cases s with
    | nan l => exact Nat.lt_of_lt_of_le hv hk.labels
    | _ => trivial

/-- Everything that there is stands for itself. -/
def itself (h : Heap) : Pairing := ⟨fun r s => r = s ∧ r < h.cells.size, fun a b => a = b ∧ a < h.nextNan⟩

theorem itself_scalars {h : Heap} {s : Scalar} (hs : h.Has (.scalar s)) : h.itself.Scalars s s := by
  cases s with
  | null => exact .null
  | bool b => exact .bool b
  | int n => exact .int n
  | float x => exact .float x
  | nan l => exact .nan ⟨rfl, hs⟩
  | str s => exact .str s

theorem itself_values {h : Heap} {v : Value} (hv : h.Has v) : h.itself.Values v v := by
  cases v with
  | scalar s => exact .scalar (itself_scalars hv)
  | ref r => exact .ref ⟨rfl, hv⟩

end Heap

/-- All that is bound or held has been made. -/
structure Script.Memory.Closed (m : Memory) : Prop where
  vars : ∀ name v, m.env.get? name = some v → m.heap.Has v
  items : ∀ r xs, m.heap.cell r = .list xs → ∀ v ∈ xs, m.heap.Has v
  entries : ∀ r es, m.heap.cell r = .object es → ∀ e ∈ es, m.heap.Has (.scalar e.1) ∧ m.heap.Has e.2

namespace Script

variable {m : Memory} {k : Heap}

theorem Memory.Closed.cell (hm : m.Closed) (r : Ref) : m.heap.itself.Cells (m.heap.cell r) (m.heap.cell r) := by
  cases hc : m.heap.cell r with
  | list xs => exact .list (List.forall₂_same.mpr fun v hv => Heap.itself_values (hm.items r xs hc v hv))
  | object es =>
    refine .object (List.forall₂_same.mpr fun e he => ?_)
    obtain ⟨hkey, hvalue⟩ := hm.entries r es hc e he
    exact ⟨Heap.itself_scalars hkey, Heap.itself_values hvalue⟩

/-- A closed memory sees nothing of what its heap is extended by. -/
theorem itself_matches (hm : m.Closed) (hk : m.heap.Extends k) : m.heap.itself.Matches m.heap k := by
  refine ⟨?_, ?_, ?_, ?_, ?_⟩
  · rintro r r' _ _ ⟨rfl, -⟩ ⟨rfl, -⟩
    exact Iff.rfl
  · rintro a a' _ _ ⟨rfl, -⟩ ⟨rfl, -⟩
    exact Iff.rfl
  · rintro r _ ⟨rfl, hr⟩
    exact .inl ⟨hr, Nat.lt_of_lt_of_le hr hk.keeps.size_le⟩
  · rintro a _ ⟨rfl, ha⟩
    exact .inl ⟨ha, Nat.lt_of_lt_of_le ha hk.labels⟩
  · rintro r _ ⟨rfl, hr⟩
    rw [cell_eq_of_getElem? (hk.keeps r hr)]
    exact hm.cell r

/-! ## Literals -/

/-- What stands at the leaves of the trees of a phrase. -/
def Phrase.leaves : Phrase → List Leaf
  | .expr _ e | .key e => e.leaves
  | .items es => Expr.leavesAll es
  | .pairs ps => Expr.leavesPairs ps

theorem Joins.leaves {l : Level} {x : Lexeme} {f : Expr → Expr → Expr} (h : Joins l x f) (a b : Expr) :
    (f a b).leaves = a.leaves ++ b.leaves := by
  cases h <;> rfl

theorem Signs.leaves {l : Level} {x : Lexeme} {f : Expr → Expr} (h : Signs l x f) (e : Expr) :
    (f e).leaves = e.leaves := by
  cases h <;> rfl

/-- Numerals, strings and words are no NaNs. -/
theorem Derives.literals {p : Phrase} {w : List Lexeme} (h : Derives p w) (l : Nat) :
    .literal (.nan l) ∉ p.leaves := by
  have happend {ls ls' : List Leaf} (hls : .literal (.nan l) ∉ ls) (hls' : .literal (.nan l) ∉ ls') :
      .literal (.nan l) ∉ ls ++ ls' := fun hl => (List.mem_append.mp hl).elim hls hls'
  induction h with
  | tighter _ _ ih | group _ ih | exprKey _ _ ih => exact ih
  | member _ _ ih | call _ _ ih | list _ ih | object _ ih => exact ih
  | joined hj _ _ iha ihb =>
    rw [Phrase.leaves, hj.leaves]
    exact happend iha ihb
  | signed hs _ ih =>
    rw [Phrase.leaves, hs.leaves]
    exact ih
  | index _ _ ihe ihk => exact happend ihe ihk
  | number n =>
    intro hl
    cases n with
    | int | float => cases List.mem_singleton.mp hl
  | string s | name s | bareKey s =>
    intro hl
    cases List.mem_singleton.mp hl
  | @word k v hv =>
    intro hl
    cases List.mem_singleton.mp hl
    cases k <;> cases hv
  | noItems | noPairs => exact List.not_mem_nil
  | lastItem _ ih => exact happend ih List.not_mem_nil
  | item _ _ ihe ihes => exact happend ihe ihes
  | lastPair _ _ ihk ihe => exact happend ihk (happend ihe List.not_mem_nil)
  | pair _ _ _ ihk ihe ihps => exact happend ihk (happend ihe ihps)

theorem parsed_literals {text : String} {e : Expr} (h : parseExpression text = .ok e) (l : Nat) :
    .literal (.nan l) ∉ e.leaves := by
  obtain ⟨ts, hts, -⟩ := parseTokens_ok.mp h
  have hlone := (parseExpression_ok hts).mp h
  generalize words ts.list = w at hlone
  cases hlone with
  | around before after hd => exact hd.literals l

/-! ## Evaluations -/

/-- All literals have been made: the NaNs among them, if there are any. -/
def Made (h : Heap) (ls : List Leaf) : Prop := ∀ s, .literal s ∈ ls → h.Has (.scalar s)

theorem Made.extends {h k : Heap} {ls : List Leaf} (hl : Made h ls) (hk : h.Extends k) : Made k ls :=
  fun s hs => (hl s hs).extends hk

theorem Made.left {h : Heap} {ls ls' : List Leaf} (hl : Made h (ls ++ ls')) : Made h ls :=
  fun s hs => hl s (List.mem_append_left _ hs)

theorem Made.right {h : Heap} {ls ls' : List Leaf} (hl : Made h (ls ++ ls')) : Made h ls' :=
  fun s hs => hl s (List.mem_append_right _ hs)

theorem made_without_nans {ls : List Leaf} (hl : ∀ l, .literal (.nan l) ∉ ls) (h : Heap) : Made h ls := by
  intro s hs
  cases s with
  | nan l => exact absurd hs (hl l)
  | _ => trivial

theorem parsed_made {text : String} {e : Expr} (he : parseExpression text = .ok e) (h : Heap) : Made h e.leaves :=
  made_without_nans (parsed_literals he) h

theorem alike_itself (hm : m.Closed) {ls : List Leaf} (hl : Made m.heap ls) : Alike m.heap.itself m.env m.env ls := by
  intro leaf hleaf
  cases leaf with
  | literal s => exact Heap.itself_scalars (hl s hleaf)
  | name n =>
    dsimp only
    cases hn : m.env.get? n with
    | none => exact .none
    | some v => exact .some (Heap.itself_values (hm.vars n v hn))

/-- What a closed memory is asked for again, on a heap that extends its own, ends alike. -/
theorem evaluate_again (hm : m.Closed) (hk : m.heap.Extends k) (text : String) :
    m.heap.itself.Ends m.heap k Pairing.Values ((evaluate text m.env).run.run m.heap)
      ((evaluate text m.env).run.run k) := by
  have hcoincide : Act.Coincide m.heap.itself Pairing.Values (evaluate text m.env) (evaluate text m.env) := by
    unfold evaluate
    cases he : parseExpression text with
    | error f => exact Act.coincide_throw f
    | ok e => exact eval_coincides m.heap.itself e (alike_itself hm (parsed_made he m.heap))
  exact hcoincide m.heap k (itself_matches hm hk)

end Script

end StepFlow
