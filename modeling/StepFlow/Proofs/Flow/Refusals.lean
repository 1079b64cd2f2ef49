/-
  StepFlow.Proofs.Flow.Refusals — in which ways a text can fail to be a flow.

  A text is refused as no JSON, as JSON that is no object, or with the problems of an object that
  the schema does not allow. Each of them is told in one class of error. The exception is a text
  with a whole number of more digits than can be read: what refuses the number is a `ValueError`,
  which nobody on the way takes for what it is.

  Proved:
  - `flow_explained`: what is refused by the schema has a problem at least.
  - `read_verdict`: what each result of reading a text says of the text.
  - `refusals_of_a_document`: so which texts are refused in which way, up to numbers that are too
    long.
  - `long_number_leaves`: such a number leaves as a `ValueError`.
-/

import StepFlow.Proofs.Flow.Schema
import StepFlow.Proofs.Json.Grammar

namespace StepFlow

/-! ## Problems -/

namespace Checked

variable {α β : Type} {f : Checked (α → β)} {c : Checked α}

/-- Nothing is refused without a problem. -/
def Explained (c : Checked α) : Prop := c ≠ .bad []

theorem explained_good (a : α) : Explained (.good a) := nofun

theorem explained_fail (kind : ProblemKind) (path : Path) (j : Json) : Explained (fail kind path j : Checked α) := nofun

theorem Explained.map (h : Explained c) (g : α → β) : Explained (g <$> c) := by
  cases c with
  | good a => exact explained_good (g a)
  | bad ps => exact fun hbad => h (congrArg bad (bad.inj hbad))

theorem Explained.seq (hf : Explained f) (hc : Explained c) : Explained (f <*> c) := by
  cases f with
  | good g => cases c with
    | good a => exact explained_good (g a)
    | bad ps => exact fun hbad => hc (congrArg bad (bad.inj hbad))
  | bad ps => cases c with
    | good a => exact fun hbad => hf (congrArg bad (bad.inj hbad))
    | bad qs =>
      intro hbad
      have hnil : ps ++ qs = [] := bad.inj hbad
      exact hf (congrArg bad (List.append_eq_nil_iff.mp hnil).1)

end Checked

namespace Decode

open Checked

variable {α : Type} {decode : Decoder α}

def Explains (decode : Decoder α) : Prop := ∀ path j, (decode path j).Explained

theorem required_explained (h : Explains decode) (whole : Json) (ms : Members) (path : Path) (name : String) :
    (required whole ms path name decode).Explained := by
  unfold required
  cases find ms [name] with
  | none => exact explained_fail _ _ _
  | some found => exact h _ _

theorem withDefault_explained (h : Explains decode) (ms : Members) (path : Path) (name : String) (default : α) :
    (withDefault ms path name default decode).Explained := by
  unfold withDefault
  cases find ms [name] with
  | none => exact explained_good _
  | some found => exact h _ _

theorem optional_explained (h : Explains decode) (ms : Members) (path : Path) (spellings : List String) :
    (optional ms path spellings decode).Explained := by
  unfold optional
  split
  · split
    · exact explained_good _
    · exact (h _ _).map _
  · exact explained_good _

theorem list_explains {decode : Nat → Decoder α} (h : ∀ i, Explains (decode i)) : Explains (list decode) := by
  have hcollect : ∀ path js index, (list.collect decode path index js).Explained := by
    intro path js
    induction js with
    | nil => exact fun _ => explained_good _
    | cons j js ih => exact fun index => ((h _ _ _).map _).seq (ih (index + 1))
  intro path j
  cases j with
  | arr js => exact hcollect path js 0
  | _ => exact explained_fail _ _ _

theorem model_explains {origin : Origin} {className : String} {body : Path → Json → Members → Checked α}
    (h : ∀ path whole ms, (body path whole ms).Explained) : Explains (model origin className body) := by
  intro path j
  cases j with
  | obj ms => exact h path _ ms
  | _ => cases origin <;> exact explained_fail _ _ _

theorem text_explains : Explains text := by
  intro path j
  cases j with
  | str s => exact explained_good s
  | _ => exact explained_fail _ _ _

theorem word_explained {W : Type} {refuse : Checked W} (h : refuse.Explained) (w : Option W) :
    (w.elim refuse pure).Explained := by
  cases w with
  | none => exact h
  | some w => exact explained_good w

theorem nodeType_explains : Explains nodeType := by
  intro path j
  cases j with
  | str s => exact word_explained (explained_fail _ _ _) _
  | _ => exact explained_fail _ _ _

theorem method_explains : Explains method := by
  intro path j
  cases j with
  | str s => exact word_explained (explained_fail _ _ _) _
  | _ => exact explained_fail _ _ _

theorem coordinate_explains (label : Nat) : Explains (coordinate label) := by
  intro path j
  unfold coordinate
  repeat' split
  all_goals first | exact explained_good _ | exact explained_fail _ _ _

theorem headers_explains : Explains headers := by
  have hcollect : ∀ path ms, (headers.collect path ms).Explained := by
    intro path ms
    induction ms with
    | nil => exact explained_good _
    | cons m ms ih => exact ((text_explains _ _).map _).seq ih
  intro path j
  cases j with
  | obj ms => exact hcollect path ms
  | _ => exact explained_fail _ _ _

theorem position_explains (origin : Origin) (label : Nat) : Explains (position origin label) :=
  model_explains fun path whole ms =>
    ((required_explained (coordinate_explains label) whole ms path "x").map _).seq
      (required_explained (coordinate_explains (label + 1)) whole ms path "y")

theorem apiConfig_explains (origin : Origin) : Explains (apiConfig origin) :=
  model_explains fun path whole ms =>
    ((((required_explained text_explains whole ms path "url").map _).seq
      (withDefault_explained method_explains ms path "method" .get)).seq
      (optional_explained headers_explains ms path ["headers"])).seq
      (optional_explained text_explains ms path ["body"])

theorem nodeData_explains (origin : Origin) : Explains (nodeData origin) :=
  model_explains fun path whole ms =>
    (((((required_explained text_explains whole ms path "label").map _).seq
      (optional_explained text_explains ms path ["description"])).seq
      (optional_explained text_explains ms path ["script"])).seq
      (optional_explained text_explains ms path ["condition"])).seq
      (optional_explained (apiConfig_explains origin) ms path ["apiConfig", "api_config"])

theorem node_explains (origin : Origin) (label : Nat) : Explains (node origin label) :=
  model_explains fun path whole ms =>
    ((((required_explained text_explains whole ms path "id").map _).seq
      (required_explained nodeType_explains whole ms path "type")).seq
      (withDefault_explained (position_explains origin label) ms path "position" .origin)).seq
      (required_explained (nodeData_explains origin) whole ms path "data")

theorem connection_explains (origin : Origin) : Explains (connection origin) :=
  model_explains fun path whole ms =>
    ((((required_explained text_explains whole ms path "id").map _).seq
      (required_explained text_explains whole ms path "source")).seq
      (required_explained text_explains whole ms path "target")).seq
      (optional_explained text_explains ms path ["sourcePort", "source_port"])

/-- A document that is no flow has a problem at least. -/
theorem flow_explained (origin : Origin) (label : Nat) : Explains (flow origin label) :=
  model_explains fun path whole ms =>
    (((((required_explained text_explains whole ms path "id").map _).seq
      (required_explained text_explains whole ms path "name")).seq
      (optional_explained text_explains ms path ["description"])).seq
      (withDefault_explained (list_explains fun i => node_explains origin (label + 2 * i)) ms path "nodes" [])).seq
      (withDefault_explained (list_explains fun _ => connection_explains origin) ms path "connections" [])

end Decode

/-! ## Texts -/

open Json (IsJson IsText LongRun Spelled)
open Json.Written (Short)

/-- What a document that is decoded, or is not, looks like. -/
theorem ofJson_verdict (label : Nat) (j : Json) :
    match Flow.ofJson label j with
    | .ok f => Shape.flow j = some f.json
    | .error e => Shape.flow j = none ∧ ∃ p ps, e = .invalid (p :: ps) := by
  have hwrites := Decode.flow_writes .document label [] j
  have hexplained := Decode.flow_explained .document label [] j
  unfold Flow.ofJson
  cases hdecoded : Decode.flow .document label [] j with
  | good f =>
    rw [hdecoded] at hwrites
    exact hwrites.symm
  | bad problems =>
    rw [hdecoded] at hwrites hexplained
    cases problems with
    | nil => exact absurd rfl hexplained
    | cons p ps => exact ⟨hwrites.symm, p, ps, rfl⟩

theorem ofJson_none (label : Nat) {j : Json} (h : Shape.flow j = none) :
    ∃ p ps, Flow.ofJson label j = .error (.invalid (p :: ps)) := by
  have hverdict := ofJson_verdict label j
  cases hresult : Flow.ofJson label j with
  | ok f =>
    rw [hresult, h] at hverdict
    cases hverdict
  | error e =>
    rw [hresult] at hverdict
    obtain ⟨-, p, ps, rfl⟩ := hverdict
    exact ⟨p, ps, rfl⟩

theorem ofJson_some (label : Nat) {j : Json} (h : (Shape.flow j).isSome = true) : ∃ f, Flow.ofJson label j = .ok f := by
  have hverdict := ofJson_verdict label j
  cases hresult : Flow.ofJson label j with
  | ok f => exact ⟨f, rfl⟩
  | error e =>
    rw [hresult] at hverdict
    rw [hverdict.1] at h
    cases h

/-- What a result says of the text that it is the result for. -/
def Verdict (text : String) : Except DocumentFault Flow → Prop
  | .ok f => ∃ ms, IsText Short text (.obj ms) ∧ Shape.flow (.obj ms) = some f.json
  | .error (.notJson _) => ¬ IsJson text
  | .error .notObject => ∃ j, IsText Short text j ∧ ∀ ms, j ≠ .obj ms
  | .error (.invalid problems) => problems ≠ [] ∧ ∃ ms, IsText Short text (.obj ms) ∧ Shape.flow (.obj ms) = none
  | .error (.number t) => ∃ n, t = .value (.tooLongToRead n) ∧ LongRun n text.toList

theorem read_verdict (label : Nat) (text : String) : Verdict text (Flow.read label text) := by
  unfold Flow.read Flow.readJson
  cases hread : Json.read text with
  | error e => cases e with
    | malformed e =>
      rintro ⟨j, hj⟩
      rcases Json.text_read hj with hok | ⟨-, n, hlong⟩
      · rw [hread] at hok
        cases hok
      · rw [hread] at hlong
        cases hlong
    | tooLong n => exact ⟨n, rfl, Json.read_tooLong hread⟩
  | ok j =>
    have htext := Json.read_text hread
    cases j with
    | obj ms =>
      have hverdict := ofJson_verdict label (.obj ms)
      show Verdict text (Flow.ofJson label (.obj ms))
      cases hdecoded : Flow.ofJson label (.obj ms) with
      | ok f =>
        rw [hdecoded] at hverdict
        exact ⟨ms, htext, hverdict⟩
      | error e =>
        rw [hdecoded] at hverdict
        obtain ⟨hnone, p, ps, rfl⟩ := hverdict
        exact ⟨List.cons_ne_nil p ps, ms, htext, hnone⟩
    | _ => exact ⟨_, htext, fun ms => nofun⟩

/-- A text without numbers that are too long is read. -/
theorem readJson_of_text {text : String} {j : Json} (h : IsText Short text j) : Flow.readJson text = .ok j := by
  unfold Flow.readJson
  rcases Json.text_read h with hok | ⟨⟨w, hshort, hlong⟩, -⟩
  · rw [hok]
  · exact absurd hshort hlong

theorem read_of_object (label : Nat) {text : String} {ms : Members} (h : IsText Short text (.obj ms)) :
    Flow.read label text = Flow.ofJson label (.obj ms) := by
  unfold Flow.read
  rw [readJson_of_text h]
  rfl

theorem read_of_other (label : Nat) {text : String} {j : Json} (h : IsText Short text j) (hj : ∀ ms, j ≠ .obj ms) :
    Flow.read label text = .error .notObject := by
  unfold Flow.read
  rw [readJson_of_text h]
  cases j with
  | obj ms => exact absurd rfl (hj ms)
  | _ => rfl

/-- Every other result speaks of a document that the text is, or of a number. -/
theorem read_unless_json (label : Nat) {text : String} (h : ¬ IsJson text) (hrun : ∀ n, ¬ LongRun n text.toList) :
    ∃ e, Flow.read label text = .error (.notJson e) := by
  have hverdict := read_verdict label text
  cases hresult : Flow.read label text with
  | ok f =>
    rw [hresult] at hverdict
    obtain ⟨ms, hms, -⟩ := hverdict
    exact absurd (Json.isJson_of_text hms) h
  | error e =>
    rw [hresult] at hverdict
    cases e with
    | notJson e => exact ⟨e, rfl⟩
    | notObject =>
      obtain ⟨j, hj, -⟩ := hverdict
      exact absurd (Json.isJson_of_text hj) h
    | invalid problems =>
      obtain ⟨-, ms, hms, -⟩ := hverdict
      exact absurd (Json.isJson_of_text hms) h
    | number t =>
      obtain ⟨n, -, hlong⟩ := hverdict
      exact absurd hlong (hrun n)

/-- Which texts are flows and which are refused in which way. An error is a `FlowDocumentError`,
    or the text has a number that is too long. It tells a line and a column only if the text is no
    JSON, and always if, besides, there are not that many digits on end. It is that of a document
    that is no object, or has a list of problems, exactly if the text is such a document and none
    of its numbers is too long. -/
theorem refusals_of_a_document (label : Nat) (text : String) :
    (∀ e, Flow.read label text = .error e → e.className = "FlowDocumentError" ∨
      ∃ n, e = .number (.value (.tooLongToRead n)) ∧ LongRun n text.toList) ∧
    ((∃ e, Flow.read label text = .error (.notJson e)) → ¬ IsJson text) ∧
    (¬ IsJson text → (∀ n, ¬ LongRun n text.toList) → ∃ e, Flow.read label text = .error (.notJson e)) ∧
    (Flow.read label text = .error .notObject ↔ ∃ j, IsText Short text j ∧ ∀ ms, j ≠ .obj ms) ∧
    ((∃ p ps, Flow.read label text = .error (.invalid (p :: ps))) ↔
      ∃ ms, IsText Short text (.obj ms) ∧ Shape.flow (.obj ms) = none) ∧
    ((∃ f, Flow.read label text = .ok f) ↔
      ∃ ms, IsText Short text (.obj ms) ∧ (Shape.flow (.obj ms)).isSome = true) := by
  have hverdict := read_verdict label text
  refine ⟨fun e he => ?_, ?_, read_unless_json label, ⟨fun he => ?_, ?_⟩, ⟨?_, ?_⟩, ⟨?_, ?_⟩⟩
  · rw [he] at hverdict
    cases e with
    | number t =>
      obtain ⟨n, rfl, hlong⟩ := hverdict
      exact .inr ⟨n, rfl, hlong⟩
    | _ => exact .inl rfl
  · rintro ⟨e, he⟩
    rwa [he] at hverdict
  · rwa [he] at hverdict
  · rintro ⟨j, hj, hother⟩
    exact read_of_other label hj hother
  · rintro ⟨p, ps, he⟩
    rw [he] at hverdict
    exact hverdict.2
  · rintro ⟨ms, hms, hnone⟩
    rw [read_of_object label hms]
    exact ofJson_none label hnone
  · rintro ⟨f, hf⟩
    rw [hf] at hverdict
    obtain ⟨ms, hms, hflow⟩ := hverdict
    exact ⟨ms, hms, by rw [hflow]; rfl⟩
  · rintro ⟨ms, hms, hsome⟩
    rw [read_of_object label hms]
    exact ofJson_some label hsome

/-- A text that is such a number is JSON, and refused by the number's own error. -/
theorem long_number_refused (label : Nat) {w : Json.Written} {cs : List Char} (h : Spelled w cs) (hlong : ¬ w.Short) :
    IsText (fun _ => True) (String.ofList cs) w.number ∧
      Flow.read label (String.ofList cs) = .error (.number (.value (.tooLongToRead w.whole.length))) := by
  have helement : Json.ElementText (fun _ => True) w.number cs := by
    have hvalue := Json.ElementText.mk (P := fun _ => True) (List.forall_mem_nil _) (.number h trivial)
      (List.forall_mem_nil _)
    simpa using hvalue
  have hskip := Json.skip_value (P := fun _ => True) (List.forall_mem_nil _) (.number h trivial) []
  have hvalue := Json.readValue_spelled h (show Json.Ends [] from fun _ h => nomatch h) (2 * cs.length + 1)
  rw [(w.json_long hlong).1] at hvalue
  rw [List.nil_append, List.append_nil] at hskip
  rw [List.append_nil] at hvalue
  refine ⟨?_, ?_⟩
  · unfold IsText
    rwa [String.toList_ofList]
  · have hread : Json.read (String.ofList cs) = .error (.tooLong w.whole.length) := by
      unfold Json.read Json.readUnmarked Json.readDocument
      rw [String.toList_ofList, helement.unmarked, if_neg Bool.false_ne_true, hskip, Nat.mul_add, hvalue]
      rfl
    unfold Flow.read Flow.readJson
    rw [hread]
    rfl

def manyOnes : Json.Written := ⟨false, List.replicate 4301 '1', [], none⟩

/-- A number is JSON and no object, yet no `FlowDocumentError` says so. -/
theorem long_number_leaves :
    IsText (fun _ => True) (String.ofList (List.replicate 4301 '1')) manyOnes.number ∧
      (∀ ms, manyOnes.number ≠ .obj ms) ∧
      ∃ e, Flow.read 0 (String.ofList (List.replicate 4301 '1')) = .error e ∧ e.className = "ValueError" := by
  have hplain : manyOnes.Plain := by
    refine ⟨fun c hc => ?_, .inr ⟨'1', List.replicate 4300 '1', rfl, by decide⟩, List.forall_mem_nil _⟩
    rw [List.eq_of_mem_replicate hc]
    rfl
  have hspelled : Spelled manyOnes (List.replicate 4301 '1') := Json.whole_spelled hplain
  have hlong : ¬ manyOnes.Short := by
    intro hshort
    have hlen := hshort rfl rfl
    rw [manyOnes, List.length_replicate] at hlen
    exact absurd hlen (by decide)
  obtain ⟨htext, hread⟩ := long_number_refused 0 hspelled hlong
  exact ⟨htext, fun ms => nofun, _, hread, rfl⟩

end StepFlow
