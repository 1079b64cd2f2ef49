/-
  StepFlow.Proofs.Script.Steadiness — what holds at every moment of the machine with a cursor.

  The cursor is steady (`Steady`) if it is within the tokens, its open constructs are those whose
  closing signs the tokens before it lack, and all that is in its log is as it should be
  (`Event.Ahead`, `Event.Nested`). A computation follows a reading (`Follows`) if it ends with the
  same result, with a steady cursor at the tokens that the reading leaves.

  Proved: how the steps of the machine follow a reading, and computations made of such steps
  (`Follows.take`, `Follows.bind` and their fellows).
-/

import StepFlow.Proofs.Script.Cursor
import StepFlow.Proofs.Script.Joining

namespace StepFlow.Script

/-! ## Brackets by kind -/

/-- The sign that closes what a sign opens. -/
def Symbol.closing? : Symbol → Option Symbol
  | .openParen => some .closeParen
  | .openBracket => some .closeBracket
  | .openBrace => some .closeBrace
  | _ => none

/-- The closing signs that are awaited after a lexeme, the next one first. There is no such list
    if a sign closes what it did not open. -/
def awaited (stack : List Symbol) : Lexeme → Option (List Symbol)
  | .symbol s => match s.closing? with
    | some t => some (t :: stack)
    | none => if s.closes then (if stack.head? = some s then some stack.tail else none) else some stack
  | _ => some stack

def awaitedThrough (stack : List Symbol) (w : List Lexeme) : Option (List Symbol) := w.foldlM awaited stack

theorem awaitedThrough_snoc {stack stack' : List Symbol} {w : List Lexeme} (h : awaitedThrough stack w = some stack')
    (x : Lexeme) : awaitedThrough stack (w ++ [x]) = awaited stack' x := by
  unfold awaitedThrough at h ⊢
  rw [List.foldlM_append, h]
  simp

/-- The closing signs of open constructs. -/
def closings (opened : List Mark) : List Symbol := opened.map (·.construct.closing)

/-! ## What holds at every moment -/

namespace Reader

/-- The readers of a text as a whole: they stand outside of statements and expressions. -/
def outer : Reader → Bool
  | .statements | .expression | .ending => true
  | _ => false

/-- The readers that take at least one token; the others are the turns of a loop. -/
def takes : Reader → Bool
  | .chain _ | .suffixes | .statements | .ending => false
  | _ => true

/-- A reader calls only ones of lower rank before it has taken a token. -/
def rank : Reader → Nat
  | .chain _ | .suffixes | .ending => 0
  | .primary => 1
  | .unsigned l => 2 * l.looseness
  | .expr l => 2 * l.looseness + 1
  | .items | .key | .statement => 18
  | .pairs | .statements | .expression => 19

theorem rank_le (r : Reader) : r.rank ≤ 19 := by
  cases r with
  | expr l | unsigned l =>
    have := l.looseness_le
    simp only [rank]
    omega
  | _ => simp [rank]

end Reader

/-- The mark is at an opening sign of its construct. -/
def Mark.Opens (ts : List Token) (m : Mark) : Prop := (words ts)[m.start]? = some (.symbol m.construct.opening)

namespace Event

/-- No place is beyond the end. If a reader is called while a call of it is unfinished, as it is for
    the next turn of a loop, a token was taken in between; and if it is a whole expression within
    another one, that token is the opening sign of the innermost construct. A reader that returns
    has taken a token, unless it is the turn of a loop. -/
def Ahead (ts : List Token) : Event → Prop
  | .looked pos => pos ≤ ts.length
  | .took pos _ => pos < ts.length
  | .called r pos s => pos ≤ ts.length ∧ (∀ f ∈ s.calls, f.start ≤ pos ∧ (f.reader = r → f.start < pos)) ∧
      (r = .expr .disjunction → ∀ f ∈ s.calls, f.reader = r →
        ∃ m ∈ s.opened.head?, m.Opens ts ∧ f.start ≤ m.start ∧ m.start < pos)
  | .returned f pos => pos ≤ ts.length ∧ f.start ≤ pos ∧ (f.reader.takes = true → f.start < pos)

/-- The open constructs are those whose closing signs the tokens before lack, and a line feed is
    taken in none of them, and by no reader of a statement. -/
def Nested (ts : List Token) : Event → Prop
  | .took pos s => awaitedThrough [] (words (ts.take pos)) = some (closings s.opened) ∧
      (∀ m ∈ s.opened, m.start < pos ∧ m.Opens ts) ∧
      ((words ts)[pos]? = some .newline → s.opened = [] ∧ ∀ f ∈ s.calls, f.reader.outer = true)
  | _ => True

end Event

/-- The cursor is at the tokens `rest` of `ts`, in these constructs, and all has gone well. -/
structure Steady (ts : List Token) (opened : List Mark) (c : Cursor) (rest : List Token) : Prop where
  left : ts.drop c.pos = rest
  within : c.pos ≤ ts.length
  awaited : awaitedThrough [] (words (ts.take c.pos)) = some (closings opened)
  marks : ∀ m ∈ opened, m.start < c.pos ∧ m.Opens ts
  order : c.log.filterMap Event.taken? = List.range c.pos
  events : ∀ e ∈ c.log, e.Ahead ts ∧ e.Nested ts

section

variable {ts rest : List Token} {opened after : List Mark} {c : Cursor} {t : Token}

theorem Steady.length (h : Steady ts opened c rest) : c.pos + rest.length = ts.length := by
  have hw := h.within
  rw [← h.left, List.length_drop]
  omega

theorem Steady.head (h : Steady ts opened c rest) : ts[c.pos]? = rest.head? := by
  rw [← h.left, List.head?_drop]

/-- An event at which no token is taken changes nothing. -/
theorem Steady.note (h : Steady ts opened c rest) {e : Event} (he : e.taken? = none) (ha : e.Ahead ts)
    (hn : e.Nested ts) : Steady ts opened (c.note e) rest := by
  refine ⟨h.left, h.within, h.awaited, h.marks, ?_, ?_⟩
  · show (c.log ++ [e]).filterMap Event.taken? = _
    rw [List.filterMap_append, h.order]
    simp [he, Cursor.note]
  · intro e' he'
    rcases List.mem_append.mp he' with he' | he'
    · exact h.events e' he'
    · rw [List.mem_singleton.mp he']
      exact ⟨ha, hn⟩

theorem Steady.looked (h : Steady ts opened c rest) : Steady ts opened (c.note (.looked c.pos)) rest :=
  h.note rfl h.within trivial

/-- The token under a steady cursor can be taken. -/
theorem Steady.took {s : Scope} (h : Steady ts s.opened c (t :: rest))
    (hawaited : Script.awaited (closings s.opened) t.lexeme = some (closings after))
    (hmarks : ∀ m ∈ after, m.start < c.pos + 1 ∧ m.Opens ts)
    (hfeed : t.lexeme = .newline → s.opened = [] ∧ ∀ f ∈ s.calls, f.reader.outer = true) :
    Steady ts after ⟨c.pos + 1, c.log ++ [.took c.pos s]⟩ rest := by
  have hlen := h.length
  have hhead : ts[c.pos]? = some t := h.head
  rw [List.length_cons] at hlen
  refine ⟨?_, by dsimp only; omega, ?_, hmarks, ?_, ?_⟩
  · dsimp only
    rw [← List.drop_drop, h.left, List.drop_one, List.tail_cons]
  · dsimp only
    rw [List.take_add_one, hhead, Option.toList_some, words_append]
    exact (awaitedThrough_snoc h.awaited _).trans hawaited
  · dsimp only
    rw [List.filterMap_append, h.order, List.range_succ]
    rfl
  · intro e he
    rcases List.mem_append.mp he with he | he
    · exact h.events e he
    · rw [List.mem_singleton.mp he]
      refine ⟨by show c.pos < ts.length; omega, h.awaited, h.marks, fun hw => hfeed ?_⟩
      have hword : (words ts)[c.pos]? = some t.lexeme := by rw [words, List.getElem?_map, hhead]; rfl
      exact Option.some.inj (hword.symm.trans hw)

end

/-! ## Following a reading -/

/-- The computation ends as the reading does, with a steady cursor: in the constructs `left` if it succeeds. -/
inductive Follows (ts : List Token) {α : Type} (m : Machine α) (s : Scope) (c : Cursor) (left : List Mark) :
    Except Unexpected (α × List Token) → Prop
  | ok {a : α} {c' : Cursor} {rest : List Token} : m s c = some (.ok a, c') → Steady ts left c' rest →
      Follows ts m s c left (.ok (a, rest))
  | error {x : Expectation} {c' : Cursor} {opened : List Mark} {rest : List Token} :
      m s c = some (.error x, c') → Steady ts opened c' rest → Follows ts m s c left (.error ⟨x, rest⟩)

section

variable {α β : Type} {ts rest : List Token} {s : Scope} {c : Cursor} {opened mid after left : List Mark}
  {frames : List Frame}

theorem Follows.pure (h : Steady ts left c rest) (a : α) :
    Follows ts (pure a : Machine α) s c left (.ok (a, rest)) := .ok rfl h

theorem Follows.bind {m : Machine α} {f : α → Machine β} {r : Except Unexpected (α × List Token)}
    {k : α × List Token → Except Unexpected (β × List Token)} (hm : Follows ts m s c mid r)
    (hf : ∀ a c' rest, Steady ts mid c' rest → r = .ok (a, rest) → Follows ts (f a) s c' left (k (a, rest))) :
    Follows ts (m >>= f) s c left (r >>= k) := by
  cases hm with
  | @ok a c' rest hm h =>
    have hnext := hf a c' rest h rfl
    have heq : (m >>= f) s c = f a s c' := by rw [bind_eq, hm]
    rw [ok_then]
    generalize k (a, rest) = o at hnext ⊢
    cases hnext with
    | ok hok h' => exact .ok (heq.trans hok) h'
    | error herror h' => exact .error (heq.trans herror) h'
  | error hm h => exact .error (by rw [bind_eq, hm]) h

/-- What comes to the same computation. -/
theorem Follows.of_eq {m m' : Machine α} {u : Scope} {d : Cursor} {r : Except Unexpected (α × List Token)}
    (h : Follows ts m' u d left r) (heq : m s c = m' u d) : Follows ts m s c left r := by
  cases h with
  | ok hm h => exact .ok (heq.trans hm) h
  | error hm h => exact .error (heq.trans hm) h

theorem Follows.look {f : Option Token → Machine α} {r : Except Unexpected (α × List Token)}
    (h : Steady ts opened c rest)
    (hf : ∀ c', Steady ts opened c' rest → Follows ts (f rest.head?) s c' left r) :
    Follows ts (look ts >>= f) s c left r := by
  refine (hf _ h.looked).of_eq ?_
  rw [bind_eq]
  show f ts[min c.pos ts.length]? s _ = _
  rw [Nat.min_eq_left h.within, h.head]

theorem Follows.take {t : Token} {f : Unit → Machine α} {r : Except Unexpected (α × List Token)}
    (h : Steady ts s.opened c (t :: rest))
    (hawaited : Script.awaited (closings s.opened) t.lexeme = some (closings after))
    (hmarks : ∀ m ∈ after, m.start < c.pos + 1 ∧ m.Opens ts)
    (hfeed : t.lexeme = .newline → s.opened = [] ∧ ∀ f ∈ s.calls, f.reader.outer = true)
    (hf : ∀ c', Steady ts after c' rest → Follows ts (f ()) s c' left r) :
    Follows ts (take ts >>= f) s c left r := by
  have htaken := h.looked.took hawaited hmarks hfeed
  refine (hf _ htaken).of_eq ?_
  have hhead : ts[min c.pos ts.length]? = some t := by rw [Nat.min_eq_left h.within, h.head]; rfl
  have htake : Script.take ts s c =
      some (.ok (), ⟨c.pos + 1, (c.note (.looked c.pos)).log ++ [.took c.pos s]⟩) := by
    unfold Script.take
    rw [bind_eq]
    unfold Script.look
    rw [hhead]
    rfl
  rw [bind_eq, htake]
  rfl

theorem Follows.refuse (h : Steady ts opened c rest) (x : Expectation) :
    Follows ts (refuse ts x : Machine α) s c left (.error ⟨x, rest⟩) :=
  .look h fun _ h' => .error rfl h'

end

/-! ## Signs -/

/-- A lexeme that is no line feed can be taken in the constructs `opened`, and it leaves `after` open. -/
structure Leaves (opened : List Mark) (x : Lexeme) (after : List Mark) : Prop where
  awaited : Script.awaited (closings opened) x = some (closings after)
  among : ∀ m ∈ after, m ∈ opened
  feed : x ≠ .newline

/-- A lexeme that changes no depth is no bracket. -/
theorem Leaves.flat (x : Lexeme) (h : ∀ depth, depthAfter depth x = depth) (hn : x ≠ .newline)
    (opened : List Mark) : Leaves opened x opened := by
  refine ⟨?_, fun _ hm => hm, hn⟩
  cases x with
  | symbol s =>
    have hs := h 1
    revert hs
    cases s <;> first | exact fun _ => rfl | exact nofun
  | _ => rfl

/-- The closing sign of the innermost construct. -/
theorem Leaves.closing (m : Mark) (opened : List Mark) :
    Leaves (m :: opened) (.symbol m.construct.closing) opened := by
  refine ⟨?_, fun _ hm => List.mem_cons_of_mem _ hm, fun h => by cases h⟩
  obtain ⟨k, start⟩ := m
  cases k <;> rfl

section

variable {α β : Type} {ts rest : List Token} {s : Scope} {c : Cursor} {opened mid after left : List Mark}
  {frames : List Frame} {sign : Symbol}

theorem Follows.step {t : Token} {f : Unit → Machine α} {r : Except Unexpected (α × List Token)}
    (h : Steady ts s.opened c (t :: rest)) (hl : Leaves s.opened t.lexeme after)
    (hf : ∀ c', Steady ts after c' rest → Follows ts (f ()) s c' left r) :
    Follows ts (Script.take ts >>= f) s c left r := by
  refine .take h hl.awaited (fun m hm => ?_) (fun hx => absurd hx hl.feed) hf
  have hmark := h.marks m (hl.among m hm)
  exact ⟨Nat.lt_succ_of_lt hmark.1, hmark.2⟩

theorem after?_head (sign : Symbol) (rest : List Token) :
    (after? sign rest.head?.toList).isSome = (after? sign rest).isSome := by
  match rest with
  | [] => rfl
  | ⟨x, p⟩ :: rest =>
    cases x with
    | symbol s => by_cases hs : s = sign <;> simp [after?, hs]
    | _ => rfl

theorem sees_eq (h : Steady ts opened c rest) (sign : Symbol) :
    sees ts sign s c = some (.ok (after? sign rest).isSome, c.note (.looked c.pos)) := by
  unfold sees
  rw [bind_eq]
  show some (Except.ok (after? sign (ts[min c.pos ts.length]?).toList).isSome, _) = _
  rw [Nat.min_eq_left h.within, h.head, after?_head]

theorem Follows.sees {f : Bool → Machine α} {r : Except Unexpected (α × List Token)}
    (h : Steady ts opened c rest)
    (hf : ∀ c', Steady ts opened c' rest → Follows ts (f (after? sign rest).isSome) s c' left r) :
    Follows ts (Script.sees ts sign >>= f) s c left r :=
  (hf _ h.looked).of_eq (by rw [bind_eq, sees_eq h])

theorem bind_assoc_eq {γ : Type} (m : Machine α) (f : α → Machine β) (g : β → Machine γ) (s : Scope) (c : Cursor) :
    ((m >>= f) >>= g) s c = (m >>= fun a => f a >>= g) s c := by
  simp only [bind_eq]
  cases m s c with
  | none => rfl
  | some r =>
    obtain ⟨o, c'⟩ := r
    cases o <;> rfl

theorem Follows.accept {f : Bool → Machine α} {r : Except Unexpected (α × List Token)}
    (h : Steady ts s.opened c rest) (hl : Leaves s.opened (.symbol sign) after)
    (hyes : ∀ c' rest', after? sign rest = some rest' → Steady ts after c' rest' → Follows ts (f true) s c' left r)
    (hno : after? sign rest = none → ∀ c', Steady ts s.opened c' rest → Follows ts (f false) s c' left r) :
    Follows ts (Script.accept ts sign >>= f) s c left r := by
  refine Follows.of_eq (u := s) (d := c) (.sees h fun c' h' => ?_) (bind_assoc_eq _ _ _ _ _)
  cases ha : after? sign rest with
  | none => exact (hno ha c' h').of_eq rfl
  | some rest' =>
    obtain ⟨p, rfl⟩ := after?_eq_some ha
    refine Follows.of_eq (u := s) (d := c') (.step h' hl fun c'' h'' => ?_) (bind_assoc_eq _ _ _ _ _)
    exact (hyes c'' rest' ha h'').of_eq rfl

theorem Follows.demand (h : Steady ts s.opened c rest) (hl : Leaves s.opened (.symbol sign) after) :
    Follows ts (Script.demand ts sign) s c after (expect sign rest).out := by
  rw [expect_out]
  refine .accept h hl (fun c' rest' ha h' => ?_) fun ha c' h' => ?_
  · rw [ha]
    exact .pure h' ()
  · rw [ha]
    exact .refuse h' _

theorem Follows.bracketed {k : Construct} {p : Position} {m : Machine α} {r : Except Unexpected (α × List Token)}
    (h : Steady ts opened c (⟨.symbol k.opening, p⟩ :: rest))
    (hm : ∀ c', Steady ts (⟨k, c.pos⟩ :: opened) c' rest →
      Follows ts m ⟨frames, ⟨k, c.pos⟩ :: opened⟩ c' left r) :
    Follows ts (Script.bracketed ts k m) ⟨frames, opened⟩ c left r := by
  have hopens : Mark.Opens ts ⟨k, c.pos⟩ := by
    have hhead := h.head
    unfold Mark.Opens
    rw [words, List.getElem?_map, hhead]
    rfl
  have heq : Script.bracketed ts k m ⟨frames, opened⟩ c =
      (Script.take ts >>= fun _ => (fun s c' => m { s with opened := ⟨k, c.pos⟩ :: s.opened } c' : Machine α))
        ⟨frames, opened⟩ c := rfl
  refine Follows.of_eq (.take h ?_ ?_ ?_ fun c' h' => (hm c' h').of_eq rfl) heq
  · cases k <;> rfl
  · intro m hmem
    rcases List.mem_cons.mp hmem with rfl | hmem
    · exact ⟨Nat.lt_succ_self _, hopens⟩
    · have hmark := h.marks m hmem
      exact ⟨Nat.lt_succ_of_lt hmark.1, hmark.2⟩
  · intro hx
    cases hx

end

end StepFlow.Script
