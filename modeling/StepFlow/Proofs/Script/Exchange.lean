/-
  StepFlow.Proofs.Script.Exchange — two expressions may be evaluated in either order.

  In the one order the first expression makes its containers and NaNs before the second one
  does, in the other order after it. So what is new has other names. All that there was has its
  own, what the one expression has made stands for what it has made in the other order, and so
  for the other one (`Crossed`).

  Proved, for all expressions and closed memories, which may be shared and cyclic:
  (1) `crossed_mirrors`: the memories that two orders leave mirror each other.
  (2) `evaluations_exchange`: either order succeeds if the other one does, and the values are
      alike. Otherwise both meet the same fault, or each meets the one of the expression that
      it evaluates first.
-/

import StepFlow.Proofs.Script.Mirroring

namespace StepFlow

namespace Pairing

/-! ## The pairing in the other direction -/

def flip (p : Pairing) : Pairing := ⟨fun r s => p.refs s r, fun a b => p.nans b a⟩

variable {p q : Pairing} {h : Heap}

theorem Scalars.flip {s t : Scalar} (hs : p.Scalars s t) : p.flip.Scalars t s := by
  cases hs with
  | null => exact .null
  | bool b => exact .bool b
  | int n => exact .int n
  | float x => exact .float x
  | nan hn => exact .nan hn
  | str s => exact .str s

theorem Values.flip {a b : Value} (ha : p.Values a b) : p.flip.Values b a := by
  cases ha with
  | scalar hs => exact .scalar hs.flip
  | ref hr => exact .ref hr

theorem Cells.flip {c d : Cell} (hc : p.Cells c d) : p.flip.Cells d c := by
  cases hc with
  | list hx => exact .list (hx.imp fun _ _ ha => ha.flip).flip
  | object he => exact .object (he.imp fun _ _ h => ⟨h.1.flip, h.2.flip⟩).flip

/-! ## Pairings of what a heap has -/

/-- What the one pairing takes for containers and NaNs of the heap, the other one does, too. -/
structure Covers (p : Pairing) (h : Heap) (q : Pairing) : Prop where
  refs {r s : Ref} : r < h.cells.size → p.refs r s → q.refs r s
  nans {a b : Nat} : a < h.nextNan → p.nans a b → q.nans a b

namespace Covers

theorem scalars (hc : p.Covers h q) {s t : Scalar} (hh : h.Has (.scalar s)) (hs : p.Scalars s t) : q.Scalars s t := by
  cases hs with
  | null => exact .null
  | bool b => exact .bool b
  | int n => exact .int n
  | float x => exact .float x
  | nan hn => exact .nan (hc.nans hh hn)
  | str s => exact .str s

theorem values (hc : p.Covers h q) {a b : Value} (hh : h.Has a) (ha : p.Values a b) : q.Values a b := by
  cases ha with
  | scalar hs => exact .scalar (hc.scalars hh hs)
  | ref hr => exact .ref (hc.refs hh hr)

theorem all {α β : Type} {R R' : α → β → Prop} {xs : List α} {ys : List β} (hx : List.Forall₂ R xs ys)
    (hR : ∀ x ∈ xs, ∀ y, R x y → R' x y) : List.Forall₂ R' xs ys := by
  induction hx with
  | nil => exact .nil
  | cons h _ ih =>
    obtain ⟨hfirst, hrest⟩ := List.forall_mem_cons.mp hR
    exact .cons (hfirst _ h) (ih hrest)

theorem cells (hc : p.Covers h q) {c d : Cell} (hh : h.HasAll c) (hcells : p.Cells c d) : q.Cells c d := by
  cases hcells with
  | list hx => exact .list (all hx fun v hv _ hvw => hc.values (hh v hv) hvw)
  | object he => exact .object (all he fun e he _ hef => ⟨hc.scalars (hh e he).1 hef.1, hc.values (hh e he).2 hef.2⟩)

end Covers

end Pairing

/-! ## What is made in another order -/

section Crossed

variable {n n₁ k₁ n₂ a b a' b' : Nat}

/-- Below `n` all numbers are given out. In the one order, those up to `n₁` are given out next, and then
    others; in the other order those others are, up to `k₁`, and then the former. -/
def Crossed (n n₁ k₁ a b : Nat) : Prop :=
  (a = b ∧ a < n) ∨ (n ≤ a ∧ a < n₁ ∧ a + k₁ = n + b) ∨ (n ≤ b ∧ b < k₁ ∧ b + n₁ = n + a)

theorem Crossed.flip (h : Crossed n n₁ k₁ a b) : Crossed n k₁ n₁ b a := by
  unfold Crossed at *
  omega

theorem Crossed.eq_iff (hn : n ≤ n₁) (hk : n ≤ k₁) (h : Crossed n n₁ k₁ a b) (h' : Crossed n n₁ k₁ a' b') :
    a = a' ↔ b = b' := by
  unfold Crossed at *
  omega

/-- In either order as many numbers are given out. -/
theorem Crossed.inside (hn : n ≤ n₁) (hk : n ≤ k₁) (hsize : n₁ + k₁ = n + n₂) (h : Crossed n n₁ k₁ a b) :
    Pairing.InStep n₂ n₂ a b := by
  unfold Crossed at h
  refine .inl ?_
  omega

theorem crossed_left (hsize : n₁ + k₁ = n + n₂) (ha : a < n₂) : ∃ b, Crossed n n₁ k₁ a b := by
  unfold Crossed
  by_cases hold : a < n
  · exact ⟨a, .inl ⟨rfl, hold⟩⟩
  · by_cases hfirst : a < n₁
    · exact ⟨a + k₁ - n, .inr (.inl (by omega))⟩
    · exact ⟨a + n - n₁, .inr (.inr (by omega))⟩

end Crossed

/-- `h₁` is what the first evaluation makes of the heap, and `k₁` what the second one makes of it. -/
def Pairing.crossed (h h₁ k₁ : Heap) : Pairing :=
  ⟨fun r s => Crossed h.cells.size h₁.cells.size k₁.cells.size r s, Crossed h.nextNan h₁.nextNan k₁.nextNan⟩

namespace Script

open Pairing

variable {m : Memory} {h₁ h₂ k₁ k₂ : Heap} {p q : Pairing}

theorem within_crossed (h h₁ k₁ : Heap) : h.itself.Within (crossed h h₁ k₁) := ⟨.inl, .inl⟩

/-- What the first evaluation has made is taken for what it makes after the second one. -/
theorem grows_covers {h : Heap} (hg : h.itself.Grows h k₁ p h₁ k₂) : p.Covers h₁ (crossed h h₁ k₁) := by
  refine ⟨fun hlt hr => ?_, fun hlt hn => ?_⟩
  · rcases hg.newRefs hr with hr | ⟨hle, heq⟩
    · exact .inl hr
    · exact .inr (.inl ⟨hle, hlt, heq⟩)
  · rcases hg.newNans hn with hn | ⟨hle, heq⟩
    · exact .inl hn
    · exact .inr (.inl ⟨hle, hlt, heq⟩)

theorem new_cells {h : Heap} (hg : h.itself.Grows h k₁ p h₁ k₂) (hp : p.Matches h₁ k₂) (hc : h₁.Closed)
    {r s : Nat} (hle : h.cells.size ≤ r) (hlt : r < h₁.cells.size) (heq : r + k₁.cells.size = h.cells.size + s) :
    (crossed h h₁ k₁).Cells (h₁.cell r) (k₂.cell s) :=
  (grows_covers hg).cells (hc r) (hp.cell (hg.paired hle hlt heq))

/-- Two evaluations in both orders. The one makes `h₁` of the heap and then the other one `h₂`; the other one
    makes `k₁` of it and then the one `k₂`. -/
structure Orders (h h₁ h₂ k₁ k₂ : Heap) (p q : Pairing) : Prop where
  closed : h₁.Closed ∧ k₁.Closed
  first : h.Extends h₁ ∧ h.Extends k₁
  second : h₁.Extends h₂ ∧ k₁.Extends k₂
  grows : h.itself.Grows h k₁ p h₁ k₂ ∧ h.itself.Grows h h₁ q k₁ h₂
  alike : p.Matches h₁ k₂ ∧ q.Matches k₁ h₂

theorem crossed_matches (hm : m.Closed) (ho : Orders m.heap h₁ h₂ k₁ k₂ p q) :
    (crossed m.heap h₁ k₁).Matches h₂ k₂ := by
  obtain ⟨⟨hh₁, hk₁⟩, ⟨hh, hk⟩, ⟨hh₂, hk₂⟩, ⟨hg, hg'⟩, hp, hq⟩ := ho
  have hsizes := hg.sizes
  have hsizes' := hg'.sizes
  have hlabels := hg.labels
  have hlabels' := hg'.labels
  have hsize : k₂.cells.size = h₂.cells.size := by omega
  have hlabel : k₂.nextNan = h₂.nextNan := by omega
  refine ⟨Crossed.eq_iff hsizes.1 hsizes'.1, Crossed.eq_iff hlabels.1 hlabels'.1, fun hr => ?_, fun hn => ?_, ?_⟩
  · rw [hsize]
    exact Crossed.inside hsizes.1 hsizes'.1 (by omega) hr
  · rw [hlabel]
    exact Crossed.inside hlabels.1 hlabels'.1 (by omega) hn
  · rintro r s (⟨rfl, hr⟩ | ⟨hle, hlt, heq⟩ | ⟨hle, hlt, heq⟩)
    · rw [cell_eq_of_getElem? ((hh.trans hh₂).keeps r hr), cell_eq_of_getElem? ((hk.trans hk₂).keeps r hr)]
      exact (hm.cell r).within (within_crossed _ _ _)
    · rw [cell_eq_of_getElem? (hh₂.keeps r hlt)]
      exact new_cells hg hp hh₁ hle hlt heq
    · rw [cell_eq_of_getElem? (hk₂.keeps s hlt)]
      exact (new_cells hg' hq hk₁ hle hlt heq).flip.within ⟨Crossed.flip, Crossed.flip⟩

theorem crossed_mirrors (hm : m.Closed) (ho : Orders m.heap h₁ h₂ k₁ k₂ p q) :
    Memory.Mirrors (crossed m.heap h₁ k₁) { m with heap := h₂ } { m with heap := k₂ } := by
  have hsizes := ho.grows.1.sizes
  have hsizes' := ho.grows.2.sizes
  have hsize : k₂.cells.size = h₂.cells.size := by omega
  refine ⟨⟨rfl, fun name => ?_⟩, crossed_matches hm ho, fun r hr => ?_, fun s hs => ?_⟩
  · dsimp only
    cases hn : m.env.get? name with
    | none => exact .none
    | some v => exact .some ((Heap.itself_values (hm.vars name v hn)).within (within_crossed _ _ _))
  · have hr : r < h₂.cells.size := hr
    exact crossed_left (by omega) hr
  · have hs : s < h₂.cells.size := hsize ▸ hs
    obtain ⟨r, hrs⟩ : ∃ r, Crossed m.heap.cells.size k₁.cells.size h₁.cells.size s r := crossed_left (by omega) hs
    exact ⟨r, hrs.flip⟩

/-! ## Two evaluations -/

/-- The values of two expressions, evaluated in turn. -/
def inTurn (a b : Expr) : Exec (Value × Value) := do
  let x ← onHeap (eval · a)
  let y ← onHeap (eval · b)
  pure (x, y)

/-- How two evaluations end in the one order and in the other. -/
inductive Exchange (m : Memory) (a b : Expr) :
    Except Fault (Value × Value) × Memory → Except Fault (Value × Value) × Memory → Prop
  | done {x y x' y' : Value} {n n' : Memory} (p : Pairing) : m.heap.itself.Within p → n.Mirrors p n' → p.Values x x' →
    p.Values y y' → Exchange m a b (.ok (x, y), n) (.ok (y', x'), n')
  | same (f : Fault) (n n' : Memory) : Exchange m a b (.error f, n) (.error f, n')
  | first {f f' : Fault} (n n' : Memory) : ((onHeap (eval · a)).run m).1 = .error f →
    ((onHeap (eval · b)).run m).1 = .error f' → Exchange m a b (.error f, n) (.error f', n')

/-- What a first evaluation leaves lets a second one end as it would have ended at first. -/
theorem evaluated_after (hm : m.Closed) {e : Expr} (he : Made m.heap e.leaves) (hk : m.heap.Extends k₁) :
    m.heap.itself.Ends m.heap k₁ Values ((eval m.env e).run m.heap) ((eval m.env e).run k₁) :=
  eval_coincides m.heap.itself e (alike_itself hm he) m.heap k₁ (itself_matches hm hk)

theorem inTurn_run (a b : Expr) (m : Memory) :
    (inTurn a b).run m = match (eval m.env a).run m.heap with
      | (.ok x, h) => match (eval m.env b).run h with
        | (.ok y, k) => (.ok (x, y), { m with heap := k })
        | (.error f, k) => (.error f, { m with heap := k })
      | (.error f, h) => (.error f, { m with heap := h }) := by
  unfold inTurn
  rw [Exec.bind_run, onHeap_run]
  rcases (eval m.env a).run m.heap with ⟨f | x, h⟩
  · rfl
  · dsimp only
    rw [Exec.bind_run, onHeap_run]
    rcases (eval m.env b).run h with ⟨f | y, k⟩
    · rfl
    · rfl

theorem evaluations_exchange (hm : m.Closed) {a b : Expr} (ha : Made m.heap a.leaves) (hb : Made m.heap b.leaves) :
    Exchange m a b ((inTurn a b).run m) ((inTurn b a).run m) := by
  have hmakes := eval_makes m.heap a hm.bound ha m.heap (.refl _) hm.containers
  have hmakes' := eval_makes m.heap b hm.bound hb m.heap (.refl _) hm.containers
  have hends := evaluated_after hm ha hmakes'.extends'
  have hends' := evaluated_after hm hb hmakes.extends'
  have hfault : ∀ e f, ((eval m.env e).run m.heap).1 = .error f → ((onHeap (eval · e)).run m).1 = .error f :=
    fun _ _ hf => hf
  rw [inTurn_run, inTurn_run]
  cases hx : (eval m.env a).run m.heap with
  | mk rx h₁ =>
  cases hy : (eval m.env b).run m.heap with
  | mk ry k₁ =>
  rw [hx] at hmakes hends hends'
  rw [hy] at hmakes' hends hends'
  cases rx with
  | error f =>
    cases ry with
    | error f' => exact .first _ _ (hfault a f (by rw [hx])) (hfault b f' (by rw [hy]))
    | ok y =>
      dsimp only at hends ⊢
      generalize (eval m.env a).run k₁ = r at hends ⊢
      cases hends with
      | intro p _ _ hagree =>
        cases hagree with
        | error => exact .same f _ _
  | ok x =>
    cases ry with
    | error f' =>
      dsimp only at hends' ⊢
      generalize (eval m.env b).run h₁ = r at hends' ⊢
      cases hends' with
      | intro p _ _ hagree =>
        cases hagree with
        | error => exact .same f' _ _
    | ok y =>
      have hrest := eval_makes h₁ b (hm.bound.extends hmakes.extends') (hb.extends hmakes.extends') h₁ (.refl _)
        hmakes.closed
      have hrest' := eval_makes k₁ a (hm.bound.extends hmakes'.extends') (ha.extends hmakes'.extends') k₁ (.refl _)
        hmakes'.closed
      dsimp only at hends hends' hrest hrest' ⊢
      generalize (eval m.env b).run h₁ = r at hends' hrest ⊢
      generalize (eval m.env a).run k₁ = r' at hends hrest' ⊢
      cases hends with
      | @intro _ _ _ k₂ p hg hp hxx =>
      cases hends' with
      | @intro _ _ _ h₂ q hg' hq hyy =>
      cases hxx with
      | @ok _ x' hxx =>
      cases hyy with
      | @ok _ y' hyy =>
        refine .done (crossed m.heap h₁ k₁) (within_crossed _ _ _) ?_ ?_ ?_
        · exact crossed_mirrors hm ⟨⟨hmakes.closed, hmakes'.closed⟩, ⟨hmakes.extends', hmakes'.extends'⟩,
            ⟨hrest.extends', hrest'.extends'⟩, ⟨hg, hg'⟩, hp, hq⟩
        · exact (grows_covers hg).values (hmakes.made x rfl) hxx
        · exact ((grows_covers hg').values (hmakes'.made y rfl) hyy).flip.within ⟨Crossed.flip, Crossed.flip⟩

end Script

end StepFlow
