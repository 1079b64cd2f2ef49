/-
  StepFlow.Proofs.Json.RoundTrip — the text of a document, at any layout, is read as it.

  A document can be written and read back if its doubles are finite, its whole numbers not too
  long and the names of every object different (`Printable`). Blanks are laid only where the
  reader skips them. A number ends at a comma, a bracket, a blank or the end of the text, so
  what follows a value never goes on with it.

  Proved:
  - `readString_write`: every string comes back, whatever its characters.
  - `merged_nodup`: members with names of their own stay as they are.
  - `readValue_write`: what is written is read, if there is room for twice its length.
  - `read_write`: so the whole text is read as the document.
-/

import StepFlow.Proofs.Json.Numbers

namespace StepFlow.Json

/-! ## Strings -/

/-- A part that is a character, maybe by its number. -/
inductive Stands (c : Char) : Part → Prop
  | plain : Stands c (.char c)
  | numbered : c.toNat < 32 → Stands c (.code c.toNat)

theorem Stands.joined {c : Char} {p : Part} (h : Stands c p) (ps : List Part) : joined (p :: ps) = c :: joined ps := by
  cases h with
  | plain => rfl
  | numbered hc =>
    have hhigh : isHigh c.toNat = false := by
      simp only [isHigh, Bool.and_eq_false_iff, decide_eq_false_iff_not]
      omega
    have hlow : isLow c.toNat = false := by
      simp only [isLow, Bool.and_eq_false_iff, decide_eq_false_iff_not]
      omega
    have hchar : codeChar c.toNat = c := by
      rw [codeChar, hhigh, hlow]
      exact Char.ofNat_toNat c
    cases ps with
    | nil => simp only [Json.joined, hchar]
    | cons q ps => cases q <;> simp [Json.joined, hchar, hhigh]

theorem hex_read : ∀ n < 32, (Text.hex 4 n).length = 4 ∧ hexCode? (Text.hex 4 n) = some n := by
  decide

/-- The characters that an escape has a letter for. -/
def lettered : List Char := ['"', '\\', '\n', '\r', '\t', '\x08', '\x0c']

theorem escapeChar_numbered {c : Char} (hc : c ∉ lettered) (hcontrol : c.toNat < 32) :
    escapeChar c = '\\' :: 'u' :: Text.hex 4 c.toNat := by
  simp only [lettered, List.mem_cons, List.not_mem_nil, or_false, not_or] at hc
  simp [escapeChar, hc, hcontrol]

theorem escapeChar_plain {c : Char} (hc : c ∉ lettered) (hcontrol : ¬ c.toNat < 32) : escapeChar c = [c] := by
  simp only [lettered, List.mem_cons, List.not_mem_nil, or_false, not_or] at hc
  simp [escapeChar, hc, hcontrol]

/-- An escaped character is one part, which stands for it. -/
theorem readParts_escape (opening : Nat) (c : Char) {cs : List Char} (hcs : cs ≠ []) {parts : List Part}
    {rest : List Char} (h : readParts opening cs = .ok (parts, rest)) :
    ∃ p, Stands c p ∧ readParts opening (escapeChar c ++ cs) = .ok (p :: parts, rest) := by
  by_cases hc : c ∈ lettered
  · simp only [lettered, List.mem_cons, List.not_mem_nil, or_false] at hc
    rcases hc with rfl | rfl | rfl | rfl | rfl | rfl | rfl <;>
      exact ⟨_, .plain, by simp [escapeChar, readParts, escaped?, h]⟩
  by_cases hcontrol : c.toNat < 32
  · obtain ⟨hfour, hcode⟩ := hex_read c.toNat hcontrol
    refine ⟨_, .numbered hcontrol, ?_⟩
    rw [escapeChar_numbered hc hcontrol]
    obtain ⟨x, xs, rfl⟩ := List.exists_cons_of_ne_nil hcs
    match hhex : Text.hex 4 c.toNat, hfour with
    | [a, b, d, e], _ =>
      rw [hhex] at hcode
      simp [readParts, hcode, h]
  · have hne : c ≠ '"' ∧ c ≠ '\\' := by
      simp only [lettered, List.mem_cons, not_or] at hc
      exact ⟨hc.1, hc.2.1⟩
    refine ⟨_, .plain, ?_⟩
    rw [escapeChar_plain hc hcontrol]
    simp [readParts, hne, hcontrol, h]

theorem readParts_write (opening : Nat) (cs rest : List Char) :
    ∃ parts, readParts opening (cs.flatMap escapeChar ++ '"' :: rest) = .ok (parts, rest) ∧ joined parts = cs := by
  induction cs with
  | nil => exact ⟨[], by simp [readParts], rfl⟩
  | cons c cs ih =>
    obtain ⟨parts, hread, hjoined⟩ := ih
    obtain ⟨p, hp, hread⟩ :=
      readParts_escape opening c (List.append_ne_nil_of_right_ne_nil _ (List.cons_ne_nil _ _)) hread
    refine ⟨p :: parts, ?_, ?_⟩
    · rwa [List.flatMap_cons, List.append_assoc]
    · rw [hp.joined, hjoined]

theorem writeString_append (s : String) (rest : List Char) :
    writeString s ++ rest = '"' :: (s.toList.flatMap escapeChar ++ '"' :: rest) := by
  simp only [writeString, List.cons_append, List.append_assoc, List.nil_append]

/-- Every string comes back. -/
theorem readString_write (s : String) (rest : List Char) :
    readString (s.toList.flatMap escapeChar ++ '"' :: rest) = .ok (s, rest) := by
  obtain ⟨parts, hread, hjoined⟩ :=
    readParts_write ((s.toList.flatMap escapeChar ++ '"' :: rest).length + 1) s.toList rest
  unfold readString
  rw [hread]
  show Except.ok (String.ofList (joined parts), rest) = _
  rw [hjoined, String.ofList_toList]

/-! ## Documents that can be written -/

mutual

/-- What the standard has a text for: finite doubles, whole numbers that are not too long, and
    objects that name nothing twice. -/
def Printable : Json → Prop
  | .null | .bool _ | .str _ => True
  | .int n => (Nat.toDigits 10 n.natAbs).length ≤ Decimal.digitLimit
  | .float x => x.isFinite = true
  | .arr items => PrintableItems items
  | .obj members => PrintableMembers members ∧ (members.map (·.1)).Nodup

def PrintableItems : List Json → Prop
  | [] => True
  | j :: js => Printable j ∧ PrintableItems js

def PrintableMembers : List (String × Json) → Prop
  | [] => True
  | (_, j) :: ms => Printable j ∧ PrintableMembers ms

end

theorem assign_new {members : List (String × Json)} {name : String} (h : name ∉ members.map (·.1)) (j : Json) :
    assign members name j = members ++ [(name, j)] := by
  induction members with
  | nil => rfl
  | cons m ms ih =>
    rw [List.map_cons, List.mem_cons, not_or] at h
    unfold assign
    rw [if_neg (fun heq => h.1 (beq_iff_eq.mp heq).symm), ih h.2]
    rfl

/-- Members with names of their own stay as they are. -/
theorem merged_nodup {members : List (String × Json)} (h : (members.map (·.1)).Nodup) : merged members = members := by
  have hfold : ∀ rest ms : List (String × Json), ((ms ++ rest).map (·.1)).Nodup →
      rest.foldl (fun ms p => assign ms p.1 p.2) ms = ms ++ rest := by
    intro rest
    induction rest with
    | nil => intro ms _; exact (List.append_nil ms).symm
    | cons p rest ih =>
      intro ms hms
      have hnew : p.1 ∉ ms.map (·.1) := by
        rw [List.map_append, List.map_cons] at hms
        intro hmem
        exact (List.nodup_append.mp hms).2.2 _ hmem _ List.mem_cons_self rfl
      rw [List.foldl_cons, assign_new hnew, ih _ (by rwa [List.append_assoc]), List.append_assoc]
      rfl
  exact hfold members [] h

/-! ## Blanks -/

theorem skip_spaces {ws : List Char} (hws : ∀ c ∈ ws, isSpace c = true) {c : Char} (hc : isSpace c = false)
    (cs : List Char) : skip (ws ++ c :: cs) = c :: cs := by
  unfold skip
  rw [List.dropWhile_append_of_pos hws, List.dropWhile_cons_of_neg (by rw [hc]; decide)]

theorem lead_spaces (l : Layout) (depth : Nat) : ∀ c ∈ l.lead depth, isSpace c = true := by
  intro c hc
  cases l with
  | none => cases hc
  | some width =>
    rcases List.mem_cons.mp hc with rfl | hc
    · rfl
    · rw [List.eq_of_mem_replicate hc]
      rfl

theorem space_spaces : ∀ c ∈ [' '], isSpace c = true := by
  intro c hc
  rw [List.mem_singleton.mp hc]
  rfl

theorem separator_eq (l : Layout) (depth : Nat) :
    ∃ ws, l.separator depth = ',' :: ws ∧ ∀ c ∈ ws, isSpace c = true := by
  cases l with
  | none => exact ⟨_, rfl, space_spaces⟩
  | some width => exact ⟨_, rfl, lead_spaces (some width) depth⟩

theorem ends_cons {c : Char} (rest : List Char) (h : c.isDigit = false ∧ c ≠ '.' ∧ c ≠ 'e' ∧ c ≠ 'E') :
    Ends (c :: rest) := by
  intro d hd
  cases hd
  exact h

theorem ends_spaces {ws : List Char} (hws : ∀ c ∈ ws, isSpace c = true) {rest : List Char} (hr : Ends rest) :
    Ends (ws ++ rest) := by
  cases ws with
  | nil => exact hr
  | cons c ws =>
    have hc := hws c List.mem_cons_self
    simp only [isSpace, Bool.or_eq_true, beq_iff_eq] at hc
    refine ends_cons _ ?_
    rcases hc with ((rfl | rfl) | rfl) | rfl <;> decide

/-! ## Values -/

/-- How the text of a value begins. -/
def Opens (c : Char) : Prop := c ∈ ['n', 't', 'f', 'N', 'I', '"', '[', '\x7b', '-'] ∨ c.isDigit = true

theorem Opens.other {c : Char} (h : Opens c) : isSpace c = false ∧ c ≠ ']' ∧ c ≠ byteOrderMark := by
  rcases h with h | h
  · simp only [List.mem_cons, List.not_mem_nil, or_false] at h
    rcases h with rfl | rfl | rfl | rfl | rfl | rfl | rfl | rfl | rfl <;> exact ⟨rfl, by decide, by decide⟩
  · have := Numeral.isDigit_range h
    refine ⟨?_, Numeral.isDigit_ne h rfl, Numeral.isDigit_ne h rfl⟩
    simp only [isSpace, Bool.or_eq_false_iff, beq_eq_false_iff_ne]
    exact ⟨⟨⟨Numeral.isDigit_ne h rfl, Numeral.isDigit_ne h rfl⟩, Numeral.isDigit_ne h rfl⟩, Numeral.isDigit_ne h rfl⟩

/-- A value that begins with none of what opens a string or a container is a word or a number. -/
theorem readValue_other {c : Char} (hc : c ≠ '"' ∧ c ≠ '[' ∧ c ≠ '\x7b') (room : Nat) (cs : List Char) :
    readValue (room + 1) (c :: cs) =
      match readWord (c :: cs) with
      | some r => .ok r
      | none => readNumber (c :: cs) := by
  unfold readValue
  split
  · rename_i heq
    cases heq
    exact absurd rfl hc.1
  · rename_i heq
    cases heq
    exact absurd rfl hc.2.1
  · rename_i heq
    cases heq
    exact absurd rfl hc.2.2
  · cases readWord (c :: cs) <;> rfl

/-- No numeral is taken for a word. -/
theorem readWord_spelled {w : Written} {text : List Char} (h : Spelled w text) (rest : List Char) :
    readWord (text ++ rest) = none := by
  obtain ⟨c, cs, rfl, hc⟩ := h.opens
  have hnone : words.find? (fun v => v.1.isPrefixOf (c :: cs ++ rest)) = none := by
    rw [List.find?_eq_none]
    intro v hv hprefix
    simp only [words, List.mem_cons, List.not_mem_nil, or_false] at hv
    rcases hc with hc | ⟨rfl, d, ds, rfl, hd⟩
    · rcases hv with rfl | rfl | rfl | rfl | rfl | rfl <;>
        (simp [List.isPrefixOf] at hprefix; rw [← hprefix.1] at hc; cases hc)
    · rcases hv with rfl | rfl | rfl | rfl | rfl | rfl <;> simp [List.isPrefixOf] at hprefix
      rw [← hprefix.1] at hd
      cases hd
  unfold readWord
  rw [hnone]
  rfl

theorem readValue_spelled {w : Written} {text : List Char} (h : Spelled w text) {rest : List Char} (hr : Ends rest)
    (room : Nat) : readValue (room + 1) (text ++ rest) = w.json.map fun j => (j, rest) := by
  have hword := readWord_spelled h rest
  have hnumber := readNumber_spelled h hr
  obtain ⟨c, cs, rfl, hc⟩ := h.opens
  have hother : c ≠ '"' ∧ c ≠ '[' ∧ c ≠ '\x7b' := by
    rcases hc with hc | ⟨rfl, -⟩
    · exact ⟨Numeral.isDigit_ne hc rfl, Numeral.isDigit_ne hc rfl, Numeral.isDigit_ne hc rfl⟩
    · decide
  rw [List.cons_append] at hword hnumber ⊢
  rw [readValue_other hother, hword]
  exact hnumber

theorem writeAt_opens (l : Layout) (depth : Nat) {j : Json} (hj : Printable j) :
    ∃ c cs, writeAt l depth j = c :: cs ∧ Opens c := by
  have hspell {w : Written} (hw : w.Plain) : ∃ c cs, spell w = c :: cs ∧ Opens c := by
    obtain ⟨c, cs, htext, hc⟩ := (spell_spelled hw).opens
    refine ⟨c, cs, htext, ?_⟩
    rcases hc with hc | ⟨rfl, -⟩
    · exact .inr hc
    · exact .inl (by decide)
  cases j with
  | null => exact ⟨_, _, rfl, .inl (by decide)⟩
  | bool b => cases b <;> exact ⟨_, _, rfl, .inl (by decide)⟩
  | int n =>
    obtain ⟨w, hw, htext, -⟩ := int_written hj
    rw [writeAt, htext]
    exact hspell hw
  | float x =>
    obtain ⟨w, hw, htext, -⟩ := float_written hj
    rw [writeAt, htext]
    exact hspell hw
  | str s => exact ⟨_, _, rfl, .inl (by decide)⟩
  | arr items => cases items <;> exact ⟨_, _, rfl, .inl (by decide)⟩
  | obj members => cases members <;> exact ⟨_, _, rfl, .inl (by decide)⟩

theorem skip_write {ws : List Char} (hws : ∀ c ∈ ws, isSpace c = true) (l : Layout) (depth : Nat) {j : Json}
    (hj : Printable j) (rest : List Char) : skip (ws ++ (writeAt l depth j ++ rest)) = writeAt l depth j ++ rest := by
  obtain ⟨c, cs, htext, hc⟩ := writeAt_opens l depth hj
  rw [htext]
  exact skip_spaces hws hc.other.1 _

/-! ## Containers -/

theorem readItems_last {room : Nat} {cs mid rest : List Char} {j : Json} (hread : readValue room cs = .ok (j, mid))
    (hskip : skip mid = ']' :: rest) : readItems (room + 1) cs = .ok ([j], rest) := by
  simp only [readItems, hread, bind, Except.bind, hskip]
  rfl

theorem readItems_more {room : Nat} {cs mid more rest : List Char} {j : Json} {js : List Json}
    (hread : readValue room cs = .ok (j, mid)) (hskip : skip mid = ',' :: more)
    (hitems : readItems room (skip more) = .ok (js, rest)) : readItems (room + 1) cs = .ok (j :: js, rest) := by
  simp only [readItems, hread, bind, Except.bind, hskip, hitems]
  rfl

theorem readMembers_last {room : Nat} {cs after value mid rest : List Char} {name : String} {j : Json}
    (hname : readString cs = .ok (name, after)) (hcolon : skip after = ':' :: value)
    (hread : readValue room (skip value) = .ok (j, mid)) (hskip : skip mid = '\x7d' :: rest) :
    readMembers (room + 1) ('"' :: cs) = .ok ([(name, j)], rest) := by
  simp only [readMembers, hname, bind, Except.bind, hcolon, hread, hskip]
  rfl

theorem readMembers_more {room : Nat} {cs after value mid more rest : List Char} {name : String} {j : Json}
    {ms : List (String × Json)} (hname : readString cs = .ok (name, after)) (hcolon : skip after = ':' :: value)
    (hread : readValue room (skip value) = .ok (j, mid)) (hskip : skip mid = ',' :: more)
    (hmembers : readMembers room (skip more) = .ok (ms, rest)) :
    readMembers (room + 1) ('"' :: cs) = .ok ((name, j) :: ms, rest) := by
  simp only [readMembers, hname, bind, Except.bind, hcolon, hread, hskip, hmembers]
  rfl

theorem readValue_items {room : Nat} {cs rest : List Char} {js : List Json} {c : Char} {text : List Char}
    (hskip : skip cs = c :: text) (hc : c ≠ ']') (hitems : readItems room (c :: text) = .ok (js, rest)) :
    readValue (room + 1) ('[' :: cs) = .ok (.arr js, rest) := by
  simp only [readValue, hskip]
  split
  · rename_i heq
    cases heq
    exact absurd rfl hc
  · simp only [hitems, bind, Except.bind]
    rfl

theorem readValue_members {room : Nat} {cs rest text : List Char} {ms : List (String × Json)}
    (hskip : skip cs = '"' :: text) (hmembers : readMembers room ('"' :: text) = .ok (ms, rest)) :
    readValue (room + 1) ('\x7b' :: cs) = .ok (.obj (merged ms), rest) := by
  simp only [readValue, hskip]
  split
  · rename_i heq
    cases heq
  · simp only [hmembers, bind, Except.bind]
    rfl

/-! ## What is written is read -/

/-- What follows an item: the items after it and the closing bracket. -/
theorem items_end (l : Layout) (depth : Nat) (js : List Json) {ws : List Char} (hws : ∀ c ∈ ws, isSpace c = true)
    (rest : List Char) : Ends (writeItems l depth js ++ (ws ++ ']' :: rest)) := by
  cases js with
  | nil => exact ends_spaces hws (ends_cons rest (by decide))
  | cons j js =>
    obtain ⟨vs, hsep, -⟩ := separator_eq l depth
    rw [writeItems, hsep]
    exact ends_cons _ (by decide)

theorem members_end (l : Layout) (depth : Nat) (ms : List (String × Json)) {ws : List Char}
    (hws : ∀ c ∈ ws, isSpace c = true) (rest : List Char) :
    Ends (writeMembers l depth ms ++ (ws ++ '\x7d' :: rest)) := by
  cases ms with
  | nil => exact ends_spaces hws (ends_cons rest (by decide))
  | cons m ms =>
    obtain ⟨vs, hsep, -⟩ := separator_eq l depth
    rw [writeMembers, hsep]
    exact ends_cons _ (by decide)

theorem writeAt_pos (l : Layout) (depth : Nat) {j : Json} (hj : Printable j) : 0 < (writeAt l depth j).length := by
  obtain ⟨c, cs, htext, -⟩ := writeAt_opens l depth hj
  rw [htext]
  exact Nat.succ_pos _

-- the recursion is the readers' own: on the room, which every container takes a unit of
mutual

/-- A written value is read, if there is room for twice its length. -/
theorem readValue_write (l : Layout) : ∀ (room depth : Nat) (j : Json) (rest : List Char), Printable j →
    2 * (writeAt l depth j).length ≤ room → Ends rest → readValue room (writeAt l depth j ++ rest) = .ok (j, rest)
  | 0, depth, j, _, hj, hroom, _ => by
    have := writeAt_pos l depth hj
    omega
  | _ + 1, _, .null, _, _, _, _ => rfl
  | _ + 1, _, .bool true, _, _, _, _ => rfl
  | _ + 1, _, .bool false, _, _, _, _ => rfl
  | room + 1, _, .int n, _, hj, _, hr => by
    obtain ⟨w, hw, htext, hjson⟩ := int_written hj
    rw [writeAt, htext, readValue_spelled (spell_spelled hw) hr, hjson]
    rfl
  | room + 1, _, .float x, _, hj, _, hr => by
    obtain ⟨w, hw, htext, hjson⟩ := float_written hj
    rw [writeAt, htext, readValue_spelled (spell_spelled hw) hr, hjson]
    rfl
  | _ + 1, _, .str s, rest, _, _, _ => by
    rw [writeAt, writeString_append]
    simp only [readValue, readString_write, bind, Except.bind]
    rfl
  | _ + 1, _, .arr [], _, _, _, _ => rfl
  | room + 1, depth, .arr (j :: js), rest, hj, hroom, _ => by
    obtain ⟨c, cs, htext, hc⟩ := writeAt_opens l (depth + 1) hj.1
    have hskip := skip_write (lead_spaces l (depth + 1)) l (depth + 1) hj.1
      (writeItems l (depth + 1) js ++ (l.lead depth ++ ']' :: rest))
    simp only [writeAt, List.length_cons, List.length_append, List.length_nil] at hroom
    have hitems := readItems_write l room (depth + 1) j js rest hj.1 hj.2 (by omega) (lead_spaces l depth)
    rw [htext, List.cons_append] at hskip hitems
    simp only [writeAt, htext, List.cons_append, List.append_assoc, List.nil_append] at hskip hitems ⊢
    exact readValue_items hskip hc.other.2.1 hitems
  | _ + 1, _, .obj [], _, _, _, _ => rfl
  | room + 1, depth, .obj ((name, j) :: ms), rest, hj, hroom, _ => by
    simp only [writeAt, List.length_cons, List.length_append, List.length_nil] at hroom
    have hmembers := readMembers_write l room (depth + 1) name j ms rest hj.1.1 hj.1.2 (by omega) (lead_spaces l depth)
    have hskip := skip_spaces (lead_spaces l (depth + 1)) (c := '"') rfl
    simp only [writeAt, writeString, List.cons_append, List.append_assoc, List.nil_append] at hmembers ⊢
    rw [readValue_members (hskip _) hmembers, merged_nodup hj.2]

theorem readItems_write (l : Layout) : ∀ (room depth : Nat) (j : Json) (js : List Json) {ws : List Char}
    (rest : List Char), Printable j → PrintableItems js →
    2 * ((writeAt l depth j).length + (writeItems l depth js).length) + 1 ≤ room → (∀ c ∈ ws, isSpace c = true) →
    readItems room (writeAt l depth j ++ (writeItems l depth js ++ (ws ++ ']' :: rest))) = .ok (j :: js, rest)
  | 0, _, _, _, _, _, _, _, hroom, _ => absurd hroom (Nat.not_succ_le_zero _)
  | room + 1, depth, j, [], _, rest, hj, _, hroom, hws => by
    have hread := readValue_write l room depth j _ hj (by omega) (items_end l depth [] hws rest)
    exact readItems_last hread (skip_spaces hws rfl rest)
  | room + 1, depth, j, k :: ks, _, rest, hj, hjs, hroom, hws => by
    have hread := readValue_write l room depth j _ hj (by omega) (items_end l depth (k :: ks) hws rest)
    obtain ⟨vs, hsep, hvs⟩ := separator_eq l depth
    simp only [writeItems, List.length_append, hsep, List.length_cons] at hroom
    have hitems := readItems_write l room depth k ks rest hjs.1 hjs.2 (by omega) hws
    rw [← skip_write hvs l depth hjs.1] at hitems
    refine readItems_more hread ?_ hitems
    rw [writeItems, hsep, List.append_assoc, List.append_assoc, List.cons_append]
    rfl

theorem readMembers_write (l : Layout) : ∀ (room depth : Nat) (name : String) (j : Json) (ms : List (String × Json))
    {ws : List Char} (rest : List Char), Printable j → PrintableMembers ms →
    2 * ((writeAt l depth j).length + (writeMembers l depth ms).length) + 1 ≤ room → (∀ c ∈ ws, isSpace c = true) →
    readMembers room (writeString name ++ ':' :: ' ' :: (writeAt l depth j ++
      (writeMembers l depth ms ++ (ws ++ '\x7d' :: rest)))) = .ok ((name, j) :: ms, rest)
  | 0, _, _, _, _, _, _, _, _, hroom, _ => absurd hroom (Nat.not_succ_le_zero _)
  | room + 1, depth, name, j, [], _, rest, hj, _, hroom, hws => by
    have hread := readValue_write l room depth j _ hj (by omega) (members_end l depth [] hws rest)
    rw [← skip_write space_spaces l depth hj] at hread
    rw [writeString_append]
    exact readMembers_last (readString_write name _) rfl hread (skip_spaces hws rfl rest)
  | room + 1, depth, name, j, (other, k) :: ms, _, rest, hj, hms, hroom, hws => by
    have hread := readValue_write l room depth j _ hj (by omega) (members_end l depth ((other, k) :: ms) hws rest)
    obtain ⟨vs, hsep, hvs⟩ := separator_eq l depth
    simp only [writeMembers, List.length_append, hsep, List.length_cons] at hroom
    have hmembers := readMembers_write l room depth other k ms rest hms.1 hms.2 (by omega) hws
    rw [writeString_append, ← skip_spaces hvs rfl] at hmembers
    rw [← skip_write space_spaces l depth hj] at hread
    rw [writeString_append]
    refine readMembers_more (readString_write name _) rfl hread ?_ hmembers
    rw [writeMembers, hsep]
    simp only [List.append_assoc, List.cons_append, writeString_append]
    rfl

end

/-- The text of a document is read as it. -/
theorem read_write (l : Layout) {j : Json} (hj : Printable j) : read (j.write l) = .ok j := by
  obtain ⟨c, cs, htext, hc⟩ := writeAt_opens l 0 hj
  have hmark : ((writeAt l 0 j).head? == some byteOrderMark) = false := by
    rw [htext]
    exact beq_eq_false_iff_ne.mpr fun h => hc.other.2.2 (Option.some.inj h)
  have hskip := skip_write (List.forall_mem_nil _) l 0 hj []
  have hread := readValue_write l (2 * ((writeAt l 0 j).length + 1)) 0 j [] hj (by omega) (fun _ h => nomatch h)
  rw [List.nil_append, List.append_nil] at hskip
  rw [List.append_nil] at hread
  unfold read readUnmarked readDocument write
  rw [String.toList_ofList, hmark, hskip, hread]
  rfl

end StepFlow.Json
