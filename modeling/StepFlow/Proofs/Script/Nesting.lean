/-
  StepFlow.Proofs.Script.Nesting — the depth that the scan counts is the nesting of the constructs.

  The scan counts brackets whatever their kind, and never below zero. The parser opens a construct
  at its opening sign and leaves it at its closing sign, of its own kind. Here both are compared at
  every token of a text: the lap of the scan that finds the token (`Finds`), and the moment at which
  the machine with a cursor takes it (`Event.took`).

  Proved: `depth_is_nesting`, for every text that is a script or an expression. At the end the
  brackets are all closed (`Steady.tracks`), and then the count was that of the awaited closing
  signs all along (`awaitedThrough_depth`).
-/

import StepFlow.Proofs.Script.Following
import StepFlow.Proofs.Script.Laps

namespace StepFlow.Script

/-! ## Awaited closing signs and depth -/

theorem Symbol.closing?_isSome (s : Symbol) : s.closing?.isSome = s.opens := by cases s <;> rfl

theorem Symbol.closes_of_opens {s : Symbol} (h : s.opens = true) : s.closes = false := by
  revert h
  cases s <;> decide

theorem awaited_symbol (stack : List Symbol) (s : Symbol) :
    awaited stack (.symbol s) = match s.closing? with
      | some t => some (t :: stack)
      | none => if s.closes then (if stack.head? = some s then some stack.tail else none) else some stack := rfl

theorem depthAfter_symbol (depth : Nat) (s : Symbol) :
    depthAfter depth (.symbol s) = if s.opens then depth + 1 else if s.closes then depth - 1 else depth := rfl

/-- The closing signs that are awaited are as many as the depth says; a closing sign is the next
    of them, so the depth is not zero there. -/
theorem awaited_depth {stack stack' : List Symbol} {x : Lexeme} (h : awaited stack x = some stack') :
    depthAfter stack.length x = stack'.length ∧
      ∀ s, x = .symbol s → s.closes = true → stack.head? = some s := by
  cases x with
  | symbol s =>
    have hopens := s.closing?_isSome
    rw [awaited_symbol] at h
    rw [depthAfter_symbol]
    cases hs : s.closing? with
    | some t =>
      simp only [hs, Option.isSome_some] at h hopens
      cases h
      rw [← hopens]
      refine ⟨rfl, fun _ he hc => ?_⟩
      cases he
      rw [Symbol.closes_of_opens hopens.symm] at hc
      cases hc
    | none =>
      simp only [hs, Option.isSome_none] at h hopens
      rw [← hopens, if_neg (by simp)]
      by_cases hc : s.closes = true
      · simp only [hc, if_true] at h ⊢
        split at h
        · rename_i hhead
          cases h
          rw [List.length_tail]
          exact ⟨rfl, fun _ he _ => by cases he; exact hhead⟩
        · cases h
      · simp only [hc] at h ⊢
        cases h
        exact ⟨rfl, fun _ he hc' => by cases he; exact absurd hc' hc⟩
  | _ =>
    cases h
    exact ⟨rfl, nofun⟩

theorem awaitedThrough_append {stack stack' : List Symbol} {u v : List Lexeme}
    (h : awaitedThrough stack (u ++ v) = some stack') :
    ∃ mid, awaitedThrough stack u = some mid ∧ awaitedThrough mid v = some stack' := by
  unfold awaitedThrough at h ⊢
  rw [List.foldlM_append] at h
  exact Option.bind_eq_some_iff.mp h

theorem awaitedThrough_cons {stack stack' : List Symbol} {x : Lexeme} {w : List Lexeme}
    (h : awaitedThrough stack (x :: w) = some stack') :
    ∃ mid, awaited stack x = some mid ∧ awaitedThrough mid w = some stack' := by
  unfold awaitedThrough at h ⊢
  rw [List.foldlM_cons] at h
  exact Option.bind_eq_some_iff.mp h

theorem awaitedThrough_depth {stack stack' : List Symbol} {w : List Lexeme} (h : awaitedThrough stack w = some stack') :
    depthThrough stack.length w = stack'.length := by
  induction w generalizing stack with
  | nil =>
    cases h
    rfl
  | cons x w ih =>
    obtain ⟨mid, hx, hw⟩ := awaitedThrough_cons h
    rw [depthThrough_cons, (awaited_depth hx).1, ih hw]

/-- Of lexemes whose brackets are all closed, each can be taken after those before it. -/
theorem awaited_at {w : List Lexeme} {stack : List Symbol} (h : awaitedThrough [] w = some stack) {i : Nat} {x : Lexeme}
    (hx : w[i]? = some x) : ∃ mid mid', awaitedThrough [] (w.take i) = some mid ∧ awaited mid x = some mid' := by
  obtain ⟨hi, hget⟩ := List.getElem?_eq_some_iff.mp hx
  have hsplit : w = w.take i ++ x :: w.drop (i + 1) := by
    rw [← hget, ← List.drop_eq_getElem_cons hi, List.take_append_drop]
  rw [hsplit] at h
  obtain ⟨mid, hmid, h⟩ := awaitedThrough_append h
  obtain ⟨mid', hx, -⟩ := awaitedThrough_cons h
  exact ⟨mid, mid', hmid, hx⟩

theorem words_take (ts : List Token) (i : Nat) : words (ts.take i) = (words ts).take i := List.map_take

/-! ## The scan and the parser at every token -/

/-- The scan of a text and a run over its tokens agree on how deep each token is. -/
structure Tracks (text : String) (ts : Tokens) (log : List Event) : Prop where
  /-- Each token is taken once, in order. -/
  order : log.filterMap Event.taken? = List.range ts.list.length
  /-- Each token is found in a lap of the scan. -/
  found : ∀ i < ts.list.length, ∃ l, Finds text.toList ts.list i l
  /-- There the depth is the number of constructs that are open when the token is taken. -/
  depth : ∀ i s l, .took i s ∈ log → Finds text.toList ts.list i l → l.depth = s.opened.length
  /-- A closing sign is found at a depth that is not zero. -/
  unclamped : ∀ i l b, Finds text.toList ts.list i l → (words ts.list)[i]? = some (.symbol b) → b.closes = true →
    0 < l.depth
  /-- A closing sign closes the innermost construct, which its own opening sign has opened. -/
  closed : ∀ i s b, .took i s ∈ log → (words ts.list)[i]? = some (.symbol b) → b.closes = true →
    ∃ m ∈ s.opened.head?, b = m.construct.closing ∧ m.start < i ∧ m.Opens ts.list
  /-- No bracket is left open. -/
  balanced : awaitedThrough [] (words ts.list) = some []
  final : ∀ k l, Laps text.toList k l → l.lap text.toList = .stop (.ok ts) → l.depth = 0
  /-- A line feed is taken in no construct, and by no reader of a statement or of what is in one. -/
  between : ∀ i s, .took i s ∈ log → (words ts.list)[i]? = some .newline →
    s.opened = [] ∧ ∀ f ∈ s.calls, f.reader.outer = true

section

variable {text : String} {ts : Tokens} {c : Cursor}

theorem closings_length (opened : List Mark) : (closings opened).length = opened.length := List.length_map _

theorem Finds.depth_eq {cs : List Char} {us : List Token} {i : Nat} {l : Scanning} (h : Finds cs us i l) :
    l.depth = depthThrough 0 (words (us.take i)) := by
  obtain ⟨⟨k, hlaps⟩, -, -, hfound, -⟩ := h
  rw [hlaps.depth_eq, hfound]

/-- If the cursor is at the end, outside of all constructs, the scan has counted the nesting. -/
theorem Steady.tracks (hscan : scan text = .ok ts) (h : Steady ts.list [] c []) : Tracks text ts c.log := by
  have hpos : c.pos = ts.list.length := h.length
  have hall : awaitedThrough [] (words ts.list) = some [] := by
    have hawaited := h.awaited
    rw [hpos, List.take_length] at hawaited
    exact hawaited
  have hnested : ∀ {i s}, Event.took i s ∈ c.log → (Event.took i s).Nested ts.list := fun he => (h.events _ he).2
  refine ⟨hpos ▸ h.order, fun i hi => laps_find (scan_ok hscan) hi, ?_, ?_, ?_, hall, ?_, ?_⟩
  · intro i s l he hl
    rw [hl.depth_eq, ← closings_length]
    exact awaitedThrough_depth (hnested he).1
  · intro i l b hl hb hcloses
    obtain ⟨mid, mid', hmid, hx⟩ := awaited_at hall hb
    have hhead := (awaited_depth hx).2 b rfl hcloses
    have hdepth : l.depth = mid.length := by
      rw [hl.depth_eq, words_take]
      exact awaitedThrough_depth hmid
    rw [hdepth]
    exact List.length_pos_of_mem (List.mem_of_mem_head? hhead)
  · intro i s b he hb hcloses
    obtain ⟨mid, mid', hmid, hx⟩ := awaited_at hall hb
    obtain ⟨hawaited, hmarks, -⟩ := hnested he
    rw [words_take, hmid] at hawaited
    have hhead := (awaited_depth hx).2 b rfl hcloses
    rw [Option.some.inj hawaited] at hhead
    obtain ⟨m, hm, rfl⟩ : ∃ m, s.opened.head? = some m ∧ m.construct.closing = b := by
      simpa [closings, List.head?_map] using hhead
    have hmark := hmarks m (List.mem_of_mem_head? hm)
    exact ⟨m, hm, rfl, hmark.1, hmark.2⟩
  · intro k l hlaps hstop
    rw [hlaps.depth_eq, lap_stop_found hstop]
    exact awaitedThrough_depth hall
  · intro i s he hb
    exact (hnested he).2.2 hb

/-- A reader of a text as a whole that succeeds has come to the end, outside of all constructs. -/
theorem Task.tracks {α : Type} (t : Task α) {a : α} (hscan : scan text = .ok ts) (hfits : t.Fits [] [])
    (hleft : t.left [] = []) (hread : t.read ts.list = .ok (a, [])) :
    ∃ c, t.Ends ts.list (.ok a) c ∧ Tracks text ts c.log := by
  obtain ⟨o, c, opened, hends, heq, hsteady, hopened⟩ := t.ends ts.list hfits
  rw [hread] at heq
  cases o with
  | error x => cases heq
  | ok b =>
    obtain ⟨rfl, hrest⟩ : a = b ∧ [] = ts.list.drop c.pos := by simpa [outcome] using heq
    rw [hopened a rfl, hleft, ← hrest] at hsteady
    exact ⟨c, hends, hsteady.tracks hscan⟩

end

/-- In a text that is a script or an expression, the depth that the scan counts is at each token
    the number of constructs that the parser is in. -/
theorem depth_is_nesting (text : String) :
    (∀ ss, parseScript text = .ok ss →
      ∃ ts c, scan text = .ok ts ∧ Task.statements.Ends ts.list (.ok ss) c ∧ Tracks text ts c.log) ∧
    (∀ e, parseExpression text = .ok e →
      ∃ ts c, scan text = .ok ts ∧ Task.expression.Ends ts.list (.ok e) c ∧ Tracks text ts c.log) := by
  constructor
  · intro ss h
    obtain ⟨ts, hscan, hparse⟩ := parseTokens_ok.mp h
    have hread : Task.statements.read ts.list = .ok (ss, []) := congrArg ended hparse
    obtain ⟨c, hends, htracks⟩ := Task.statements.tracks hscan ⟨rfl, nofun⟩ rfl hread
    exact ⟨ts, c, hscan, hends, htracks⟩
  · intro e h
    obtain ⟨ts, hscan, hparse⟩ := parseTokens_ok.mp h
    have hread : Task.expression.read ts.list = .ok (e, []) := congrArg ended hparse
    obtain ⟨c, hends, htracks⟩ := Task.expression.tracks hscan ⟨rfl, nofun⟩ rfl hread
    exact ⟨ts, c, hscan, hends, htracks⟩

theorem nesting_of_a_call_over_lines :
    (∃ ts c, scan "f([1],\n2)\nb" = .ok ts ∧
      Task.statements.Ends ts.list
        (.ok [.expr (.call "f" [.list [.literal (.int 1)], .literal (.int 2)]), .expr (.name "b")]) c ∧
      Tracks "f([1],\n2)\nb" ts c.log) ∧
    ∃ ts c, scan "\n(a)" = .ok ts ∧ Task.expression.Ends ts.list (.ok (.name "a")) c ∧ Tracks "\n(a)" ts c.log :=
  ⟨(depth_is_nesting "f([1],\n2)\nb").1 _ (by cbv), (depth_is_nesting "\n(a)").2 _ (by cbv)⟩

end StepFlow.Script
