/-
  StepFlow.Proofs.Script.Progress — scanning and parsing go forward, and end.

  The scan is looked at as a loop through the text (`Laps`), and the parser as the machine with a
  cursor. Both are total as they are defined; what is proved is why: each step leaves fewer
  characters or tokens, whether the text is right or not.

  Proved: `scanning_and_parsing_end`. The machine ends on any tokens at all (`proceeds`): nothing
  that it looks at, takes or calls is beyond the end (`Event.Ahead`), a turn of a loop that is
  followed by another one has taken a token, and so has a whole expression that is read within
  another one, for its opening sign was.
-/

import StepFlow.Proofs.Script.Following
import StepFlow.Proofs.Script.Laps

namespace StepFlow.Script

/-- From the first token on, a reader ends as the parser's does, where the cursor is then; and at
    each event on the way the cursor is as far ahead as it should be. -/
def Proceeds {α : Type} (ts : List Token) (t : Task α) : Prop :=
  ∃ o c, t.Ends ts o c ∧ t.read ts = outcome (ts.drop c.pos) o ∧ c.pos ≤ ts.length ∧ ∀ e ∈ c.log, e.Ahead ts

theorem proceeds {α : Type} (ts : List Token) (t : Task α) (hfits : t.Fits [] []) : Proceeds ts t := by
  obtain ⟨o, c, opened, hends, hread, h, -⟩ := t.ends ts hfits
  exact ⟨o, c, hends, hread, h.within, fun e he => (h.events e he).1⟩

theorem scan_short {text : String} (h : text.toList.length ≤ lengthLimit) : scan text = scanFrom 1 1 0 text.toList :=
  if_neg (Nat.not_lt.mpr h)

/-- Each lap of the scan of a text goes forward within the text, so the scan ends. Whatever tokens
    it gives, each step of the parser goes forward within them, so the parser ends. -/
theorem scanning_and_parsing_end (text : String) (h : text.toList.length ≤ lengthLimit) :
    (∀ k s s', Laps text.toList k s → s.lap text.toList = .on s' →
      s.pos < s'.pos ∧ s'.pos ≤ text.toList.length) ∧
    (∃ k s, k ≤ text.toList.length ∧ Laps text.toList k s ∧ s.lap text.toList = .stop (scan text)) ∧
    ∀ ts, scan text = .ok ts → Proceeds ts.list .statements ∧ Proceeds ts.list .expression := by
  refine ⟨fun k s s' _ hlap => lap_advances hlap, ?_, fun ts _ => ⟨?_, ?_⟩⟩
  · rw [scan_short h]
    exact laps_end text.toList
  · exact proceeds ts.list .statements ⟨rfl, nofun⟩
  · exact proceeds ts.list .expression ⟨rfl, nofun⟩

/-- Without its closing bracket, a call is read up to the end and not beyond. -/
theorem an_open_call_ends :
    "f(a".toList.length ≤ lengthLimit ∧
    scan "f(a" = .ok
      ⟨[⟨.ident "f", ⟨1, 1⟩⟩, ⟨.symbol .openParen, ⟨1, 2⟩⟩, ⟨.ident "a", ⟨1, 3⟩⟩], ⟨1, 4⟩⟩ ∧
    Proceeds [⟨.ident "f", ⟨1, 1⟩⟩, ⟨.symbol .openParen, ⟨1, 2⟩⟩, ⟨.ident "a", ⟨1, 3⟩⟩] .statements := by
  have hshort : "f(a".toList.length ≤ lengthLimit := by decide
  have hscan : scan "f(a" = .ok
      ⟨[⟨.ident "f", ⟨1, 1⟩⟩, ⟨.symbol .openParen, ⟨1, 2⟩⟩, ⟨.ident "a", ⟨1, 3⟩⟩], ⟨1, 4⟩⟩ := by cbv
  exact ⟨hshort, hscan, ((scanning_and_parsing_end "f(a" hshort).2.2 _ hscan).1⟩

end StepFlow.Script
