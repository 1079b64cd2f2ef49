/-
  StepFlow.Proofs.Flow.Schema — which documents are flows, and the form in which they are written.

  A shape (`Shape`) gives the written form of a document that it allows, and nothing for any other
  one. The shape of an object is a list of fields in the order in which they are written. A field
  is required, or filled in when it is absent, or left out when it is absent or null; it may have
  a second spelling, which counts only if the first one is not there. What is no field is dropped,
  and all texts stay as they are. `Shape.flow` is the schema of flows: nothing in it speaks of
  flows, decoders or encoders.

  Proved:
  - `flow_writes`: the decoder takes the documents that the schema allows and no others, and
    encoding what it gives is the written form. So it is for every class of the schema.
  - `decoding_normalises`: decoding and encoding a document gives its written form, which stays as
    it is when that is done once more.
-/

import StepFlow.Proofs.Flow.RoundTrip

namespace StepFlow

/-! ## Shapes -/

/-- The written form of a document, if it is one that is allowed. -/
abbrev Shape := Json → Option Json

abbrev Members := List (String × Json)

namespace Shape

def text : Shape
  | .str s => some (.str s)
  | _ => none

def word (words : List String) : Shape
  | .str s => if s ∈ words then some (.str s) else none
  | _ => none

/-- The double that a number, a truth value or a text of a number stands for. -/
def double : Shape
  | .float x => some (.float x)
  | .int n => (Binary64.ofInt? n).map .float
  | .bool b => some (.float (if b then 1.0 else 0.0))
  | .str s => (Decode.readCoordinate s).map .float
  | _ => none

/-- Texts by names of any kind. -/
def texts : Shape
  | .obj ms => (ms.mapM fun m => (text m.2).map fun n => (m.1, n)).map .obj
  | _ => none

/-- As many items in the same order. -/
def list (item : Shape) : Shape
  | .arr js => (js.mapM item).map .arr
  | _ => none

/-- The members that are written for a field of an object: none or one. -/
abbrev Field := Members → Option Members

def required (name : String) (shape : Shape) : Field := fun ms =>
  match Json.member? ms name with
  | none => none
  | some j => (shape j).map fun n => [(name, n)]

def withDefault (name : String) (default : Json) (shape : Shape) : Field := fun ms =>
  match Json.member? ms name with
  | none => some [(name, default)]
  | some j => (shape j).map fun n => [(name, n)]

/-- A field that may be absent or null. Its name is the first spelling, which decides if both
    are there. -/
def optional (name : String) (others : List String) (shape : Shape) : Field := fun ms =>
  match (name :: others).findSome? (Json.member? ms) with
  | none | some .null => some []
  | some j => (shape j).map fun n => [(name, n)]

/-- An object, by its fields in their order. -/
def record (fields : List Field) : Shape
  | .obj ms => (fields.mapM fun (f : Field) => f ms).map fun parts => .obj parts.flatten
  | _ => none

/-! ### The schema -/

def position : Shape := record [required "x" double, required "y" double]

def apiConfig : Shape := record
  [required "url" text,
   withDefault "method" (.str "GET") (word ["GET", "POST", "PUT", "DELETE"]),
   optional "headers" [] texts,
   optional "body" [] text]

def nodeData : Shape := record
  [required "label" text,
   optional "description" [] text,
   optional "script" [] text,
   optional "condition" [] text,
   optional "apiConfig" ["api_config"] apiConfig]

def node : Shape := record
  [required "id" text,
   required "type" (word ["START", "TASK", "DECISION", "SCRIPT", "API", "END"]),
   withDefault "position" (.obj [("x", .float 0.0), ("y", .float 0.0)]) position,
   required "data" nodeData]

def connection : Shape := record
  [required "id" text,
   required "source" text,
   required "target" text,
   optional "sourcePort" ["source_port"] text]

def flow : Shape := record
  [required "id" text,
   required "name" text,
   optional "description" [] text,
   withDefault "nodes" (.arr []) (list node),
   withDefault "connections" (.arr []) (list connection)]

end Shape

/-! ## Results -/

namespace Checked

variable {α β : Type}

def result? : Checked α → Option α
  | .good a => some a
  | .bad _ => none

@[simp] theorem result?_good (a : α) : (Checked.good a).result? = some a := rfl
@[simp] theorem result?_pure (a : α) : (pure a : Checked α).result? = some a := rfl

@[simp] theorem result?_fail (kind : ProblemKind) (path : Path) (j : Json) :
    (fail kind path j : Checked α).result? = none := rfl

@[simp] theorem result?_map (f : α → β) (c : Checked α) : (f <$> c).result? = c.result?.map f := by
  cases c <;> rfl

@[simp] theorem result?_seq (f : Checked (α → β)) (c : Checked α) :
    (f <*> c).result? = f.result?.bind fun g => c.result?.map g := by
  cases f <;> cases c <;> rfl

end Checked

/-! ## Decoders and shapes -/

namespace Decode

open Checked

variable {α : Type} {decode : Decoder α} {encode : α → Json} {shape : Shape}

/-- The decoder takes what the shape allows, and what it gives is encoded in the written form. -/
def Writes (decode : Decoder α) (encode : α → Json) (shape : Shape) : Prop :=
  ∀ path j, (decode path j).result?.map encode = shape j

/-- A field of an object is decoded, and encoded as the members that are written for it. -/
def WritesField (c : Checked α) (encode : α → Members) (field : Shape.Field) (ms : Members) : Prop :=
  c.result?.map encode = field ms

theorem find_single (ms : Members) (name : String) :
    find ms [name] = (Json.member? ms name).map fun j => (name, j) := by
  rw [find_cons]
  cases Json.member? ms name <;> rfl

theorem required_writes (h : Writes decode encode shape) (whole : Json) (ms : Members) (path : Path) (name : String) :
    WritesField (required whole ms path name decode) (fun a => [(name, encode a)]) (Shape.required name shape) ms := by
  unfold WritesField required Shape.required
  rw [find_single]
  cases Json.member? ms name with
  | none => rfl
  | some j =>
    dsimp only [Option.map_some]
    rw [← h (path ++ [.name name]) j, Option.map_map]
    rfl

theorem withDefault_writes (h : Writes decode encode shape) (ms : Members) (path : Path) (name : String) {a : α}
    {n : Json} (ha : encode a = n) :
    WritesField (withDefault ms path name a decode) (fun a => [(name, encode a)])
      (Shape.withDefault name n shape) ms := by
  unfold WritesField withDefault Shape.withDefault
  rw [find_single]
  cases Json.member? ms name with
  | none => exact congrArg (fun n => some [(name, n)]) ha
  | some j =>
    dsimp only [Option.map_some]
    rw [← h (path ++ [.name name]) j, Option.map_map]
    rfl

theorem find_value (ms : Members) (spellings : List String) :
    (find ms spellings).map (·.2) = spellings.findSome? (Json.member? ms) := by
  induction spellings with
  | nil => rfl
  | cons s spellings ih =>
    rw [find_cons, List.findSome?_cons, ← ih]
    cases Json.member? ms s <;> rfl

theorem optional_writes (h : Writes decode encode shape) (ms : Members) (path : Path) (name : String)
    (others : List String) :
    WritesField (optional ms path (name :: others) decode) (Encode.optional name encode)
      (Shape.optional name others shape) ms := by
  unfold WritesField optional Shape.optional
  rw [← find_value]
  cases find ms (name :: others) with
  | none => rfl
  | some found =>
    obtain ⟨s, j⟩ := found
    have hj := h (path ++ [.name s]) j
    dsimp only [Option.map_some]
    cases j with
    | null => rfl
    | _ =>
      dsimp only
      rw [← hj, result?_map, Option.map_map, Option.map_map]
      rfl

theorem collect_writes {decode : Nat → Decoder α} (h : ∀ i, Writes (decode i) encode shape) (path : Path)
    (js : List Json) (index : Nat) :
    (list.collect decode path index js).result?.map (List.map encode) = js.mapM shape := by
  induction js generalizing index with
  | nil => rfl
  | cons j js ih =>
    rw [list.collect, result?_seq, result?_map, List.mapM_cons, ← h index (path ++ [.index index]) j,
      ← ih (index + 1)]
    cases (decode index (path ++ [.index index]) j).result? with
    | none => rfl
    | some a => cases (list.collect decode path (index + 1) js).result? <;> rfl

theorem list_writes {decode : Nat → Decoder α} (h : ∀ i, Writes (decode i) encode shape) :
    Writes (list decode) (fun as => .arr (as.map encode)) (Shape.list shape) := by
  intro path j
  cases j with
  | arr js =>
    show (list.collect decode path 0 js).result?.map _ = (js.mapM shape).map _
    rw [← collect_writes h path js 0, Option.map_map]
    rfl
  | _ => rfl

/-! ### Objects -/

/-- What is decoded from some fields of an object, with what is written for them. -/
def Taken (c : Checked α) (fields : List Shape.Field) (ms : Members) (Has : α → List Members → Prop) : Prop :=
  match c.result?, fields.mapM fun (f : Shape.Field) => f ms with
  | some a, some parts => Has a parts
  | none, none => True
  | _, _ => False

section Taken

variable {β : Type} {c : Checked α} {e : α → Members} {field : Shape.Field} {fields : List Shape.Field} {ms : Members}

theorem taken_first (f : α → β) (h : WritesField c e field ms) :
    Taken (f <$> c) [field] ms fun b parts => ∃ a, b = f a ∧ parts = [e a] := by
  unfold WritesField at h
  unfold Taken
  rw [List.mapM_cons, List.mapM_nil, ← h, result?_map]
  cases c.result? with
  | none => trivial
  | some a => exact ⟨a, rfl, rfl⟩

/-- One more field. -/
theorem Taken.next {d : Checked (α → β)} {Has : (α → β) → List Members → Prop} (hd : Taken d fields ms Has)
    (h : WritesField c e field ms) : Taken (d <*> c) (fields ++ [field]) ms
      fun b parts => ∃ f a before, Has f before ∧ b = f a ∧ parts = before ++ [e a] := by
  unfold WritesField at h
  unfold Taken at hd ⊢
  rw [List.mapM_append, List.mapM_cons, List.mapM_nil, ← h, result?_seq]
  cases hf : d.result? with
  | none => cases hp : fields.mapM (fun f => f ms) with
    | none => trivial
    | some parts => rw [hf, hp] at hd; exact hd.elim
  | some f => cases hp : fields.mapM (fun f => f ms) with
    | none => rw [hf, hp] at hd; exact hd.elim
    | some parts =>
      rw [hf, hp] at hd
      cases c.result? with
      | none => trivial
      | some a => exact ⟨f, a, parts, hd, rfl, rfl⟩

theorem Taken.mono {Has Has' : α → List Members → Prop} {c : Checked α} (hc : Taken c fields ms Has)
    (h : ∀ a parts, Has a parts → Has' a parts) : Taken c fields ms Has' := by
  unfold Taken at hc ⊢
  split at hc
  · exact h _ _ hc
  · trivial
  · exact hc.elim

/-- An object is taken field by field, and written as the members for them in turn. -/
theorem model_writes {origin : Origin} {className : String} {body : Path → Json → Members → Checked α}
    (h : ∀ path whole ms, Taken (body path whole ms) fields ms fun a parts => encode a = .obj parts.flatten) :
    Writes (model origin className body) encode (Shape.record fields) := by
  intro path j
  cases j with
  | obj ms =>
    have hbody := h path (.obj ms) ms
    show (body path (.obj ms) ms).result?.map encode = (fields.mapM fun (f : Shape.Field) => f ms).map _
    unfold Taken at hbody
    split at hbody
    · rename_i a parts ha hp
      rw [ha, hp, Option.map_some, Option.map_some, hbody]
    · rename_i ha hp
      rw [ha, hp]
      rfl
    · exact hbody.elim
  | _ => cases origin <;> rfl

end Taken

/-! ### The classes of the schema -/

theorem text_writes : Writes text .str Shape.text := by
  intro path j
  cases j <;> rfl

theorem words_found {W : Type} (text : W → String) (all : List W) (s : String) :
    ((all.find? fun w => text w == s).map fun w => Json.str (text w)) =
      if s ∈ all.map text then some (.str s) else none := by
  induction all with
  | nil => rfl
  | cons w ws ih =>
    rw [List.find?_cons]
    by_cases hw : text w = s
    · simp [hw]
    · rw [beq_eq_false_iff_ne.mpr hw]
      simpa [Ne.symm hw] using ih

/-- A word of a list stands for a thing. -/
theorem word_writes {W : Type} (text : W → String) (all : List W) {refuse : Checked W} (hrefuse : refuse.result? = none)
    (s : String) : (((all.find? fun w => text w == s).elim refuse pure).result?.map fun w => Json.str (text w)) =
      Shape.word (all.map text) (.str s) := by
  rw [Shape.word, ← words_found]
  cases all.find? (fun w => text w == s) with
  | none => simp [hrefuse]
  | some w => rfl

theorem nodeType_writes :
    Writes nodeType (fun t => .str t.text) (Shape.word ["START", "TASK", "DECISION", "SCRIPT", "API", "END"]) := by
  intro path j
  cases j with
  | str s => exact word_writes NodeType.text NodeType.all rfl s
  | _ => rfl

theorem method_writes :
    Writes method (fun m => .str m.text) (Shape.word ["GET", "POST", "PUT", "DELETE"]) := by
  intro path j
  cases j with
  | str s => exact word_writes Method.text Method.all rfl s
  | _ => rfl

theorem isNaN_unique {x : Float} (h : x.isNaN = true) : x = Float.ofModel (Float.Model.pack .notANumber) := by
  have hbits := Float.ofBits_toBits x
  unfold Float.ofBits Float.Model.ofBits at hbits
  unfold Float.isNaN Float.Model.isNaN at h
  have hunpack : x.toModel.unpack = .notANumber := by
    cases hx : x.toModel.unpack <;> rw [hx] at h <;> first | rfl | cases h
  rw [← hbits]
  congr 2

/-- There is one NaN, so nothing is lost of a double that is one. -/
theorem ofFloat_float (label : Nat) (x : Float) : (Coordinate.ofFloat label x).float = x := by
  unfold Coordinate.ofFloat
  split
  · rename_i h
    have hnan : (0.0 / 0.0 : Float).isNaN = true := by decide +kernel
    show 0.0 / 0.0 = x
    rw [isNaN_unique h, isNaN_unique hnan]
  · rfl

theorem coordinate_writes (label : Nat) : Writes (coordinate label) (fun c => .float c.float) Shape.double := by
  intro path j
  cases j with
  | float x => exact congrArg (some <| Json.float ·) (ofFloat_float documentNan x)
  | int n =>
    unfold coordinate Shape.double
    dsimp only
    cases Binary64.ofInt? n <;> rfl
  | str s =>
    unfold coordinate Shape.double
    dsimp only
    cases readCoordinate s with
    | none => rfl
    | some x => exact congrArg (some <| Json.float ·) (ofFloat_float label x)
  | _ => rfl

theorem headers_writes : Writes headers Encode.headers Shape.texts := by
  have hcollect : ∀ path ms, (headers.collect path ms).result?.map (List.map fun h => (h.1, Json.str h.2)) =
      ms.mapM fun m => (Shape.text m.2).map fun n => (m.1, n) := by
    intro path ms
    induction ms with
    | nil => rfl
    | cons m ms ih =>
      obtain ⟨n, j⟩ := m
      rw [headers.collect, result?_seq, result?_map, List.mapM_cons, ← text_writes (path ++ [.name n]) j, ← ih]
      cases (text (path ++ [.name n]) j).result? with
      | none => rfl
      | some v => cases (headers.collect path ms).result? <;> rfl
  intro path j
  cases j with
  | obj ms =>
    rw [Shape.texts, ← hcollect path ms, Option.map_map]
    rfl
  | _ => rfl

theorem position_writes (origin : Origin) (label : Nat) :
    Writes (position origin label) Encode.position Shape.position := by
  refine model_writes fun path whole ms => ?_
  have hx := required_writes (coordinate_writes label) whole ms path "x"
  have hy := required_writes (coordinate_writes (label + 1)) whole ms path "y"
  refine ((taken_first _ hx).next hy).mono ?_
  rintro _ _ ⟨_, y, _, ⟨x, rfl, rfl⟩, rfl, rfl⟩
  rfl

theorem apiConfig_writes (origin : Origin) : Writes (apiConfig origin) Encode.apiConfig Shape.apiConfig := by
  refine model_writes fun path whole ms => ?_
  have hurl := required_writes text_writes whole ms path "url"
  have hget : Json.str Method.get.text = .str "GET" := rfl
  have hmethod := withDefault_writes method_writes ms path "method" hget
  have hheaders := optional_writes headers_writes ms path "headers" []
  have hbody := optional_writes text_writes ms path "body" []
  refine ((((taken_first _ hurl).next hmethod).next hheaders).next hbody).mono ?_
  rintro _ _ ⟨_, body, _, ⟨_, headers, _, ⟨_, method, _, ⟨url, rfl, rfl⟩, rfl, rfl⟩, rfl, rfl⟩, rfl, rfl⟩
  simp [Encode.apiConfig]

theorem nodeData_writes (origin : Origin) : Writes (nodeData origin) Encode.nodeData Shape.nodeData := by
  refine model_writes fun path whole ms => ?_
  have hlabel := required_writes text_writes whole ms path "label"
  have hdescription := optional_writes text_writes ms path "description" []
  have hscript := optional_writes text_writes ms path "script" []
  have hcondition := optional_writes text_writes ms path "condition" []
  have hconfig := optional_writes (apiConfig_writes origin) ms path "apiConfig" ["api_config"]
  refine (((((taken_first _ hlabel).next hdescription).next hscript).next hcondition).next hconfig).mono ?_
  rintro _ _ ⟨_, config, _, ⟨_, condition, _, ⟨_, script, _, ⟨_, description, _, ⟨label, rfl, rfl⟩, rfl, rfl⟩,
    rfl, rfl⟩, rfl, rfl⟩, rfl, rfl⟩
  simp [Encode.nodeData]

theorem node_writes (origin : Origin) (label : Nat) : Writes (node origin label) Encode.node Shape.node := by
  refine model_writes fun path whole ms => ?_
  have hid := required_writes text_writes whole ms path "id"
  have htype := required_writes nodeType_writes whole ms path "type"
  have horigin : Encode.position .origin = .obj [("x", .float 0.0), ("y", .float 0.0)] := rfl
  have hposition := withDefault_writes (position_writes origin label) ms path "position" horigin
  have hdata := required_writes (nodeData_writes origin) whole ms path "data"
  refine ((((taken_first _ hid).next htype).next hposition).next hdata).mono ?_
  rintro _ _ ⟨_, data, _, ⟨_, position, _, ⟨_, type, _, ⟨id, rfl, rfl⟩, rfl, rfl⟩, rfl, rfl⟩, rfl, rfl⟩
  rfl

theorem connection_writes (origin : Origin) : Writes (connection origin) Encode.connection Shape.connection := by
  refine model_writes fun path whole ms => ?_
  have hid := required_writes text_writes whole ms path "id"
  have hsource := required_writes text_writes whole ms path "source"
  have htarget := required_writes text_writes whole ms path "target"
  have hport := optional_writes text_writes ms path "sourcePort" ["source_port"]
  refine ((((taken_first _ hid).next hsource).next htarget).next hport).mono ?_
  rintro _ _ ⟨_, port, _, ⟨_, target, _, ⟨_, source, _, ⟨id, rfl, rfl⟩, rfl, rfl⟩, rfl, rfl⟩, rfl, rfl⟩
  simp [Encode.connection]

/-- The decoder takes the flows of the schema and no other documents, and what it gives is encoded
    in their written form. -/
theorem flow_writes (origin : Origin) (label : Nat) : Writes (flow origin label) Flow.json Shape.flow := by
  refine model_writes fun path whole ms => ?_
  have hid := required_writes text_writes whole ms path "id"
  have hname := required_writes text_writes whole ms path "name"
  have hdescription := optional_writes text_writes ms path "description" []
  have hnoNodes : Json.arr (([] : List Node).map Encode.node) = .arr [] := rfl
  have hnodes := withDefault_writes (list_writes fun i => node_writes origin (label + 2 * i)) ms path "nodes" hnoNodes
  have hnoConnections : Json.arr (([] : List Connection).map Encode.connection) = .arr [] := rfl
  have hconnections := withDefault_writes (list_writes fun _ => connection_writes origin) ms path "connections"
    hnoConnections
  refine (((((taken_first _ hid).next hname).next hdescription).next hnodes).next hconnections).mono ?_
  rintro _ _ ⟨_, connections, _, ⟨_, nodes, _, ⟨_, description, _, ⟨_, name, _, ⟨id, rfl, rfl⟩, rfl, rfl⟩,
    rfl, rfl⟩, rfl, rfl⟩, rfl, rfl⟩
  simp [Flow.json]

end Decode

/-! ## The normal form -/

theorem ofJson_ok {label : Nat} {j : Json} {f : Flow} :
    Flow.ofJson label j = .ok f ↔ Decode.flow .document label [] j = .good f := by
  unfold Flow.ofJson
  cases Decode.flow .document label [] j with
  | good g => simp
  | bad ps => simp

/-- Whatever document is decoded to a flow, the flow's document is its written form: the fields of
    the schema in its order, the optional ones where the document gives them a value, defaults
    filled in, nothing else. With finite coordinates it is decoded to the same flow again, and so
    stays as it is. -/
theorem decoding_normalises {label : Nat} {j : Json} {f : Flow} (h : Flow.ofJson label j = .ok f) :
    Shape.flow j = some f.json ∧
      ((∀ n ∈ f.nodes, n.position.x.Finite ∧ n.position.y.Finite) → ∀ again, Flow.ofJson again f.json = .ok f) := by
  refine ⟨?_, fun hfinite again => ?_⟩
  · have hgood := ofJson_ok.mp h
    rw [← Decode.flow_writes .document label [] j, hgood]
    rfl
  · exact ofJson_ok.mpr (finite_flow_decoded .document again hfinite [])

/-- A document with an unknown field, a null, an integer coordinate, no method and both spellings
    of a field. -/
def untidyDocument : Json :=
  .obj [("connections", .arr [.obj [("source_port", .str "out"), ("target", .str "n"), ("source", .str "n"),
      ("id", .str "c"), ("sourcePort", .null)]]),
    ("nodes", .arr [.obj [("type", .str "API"), ("id", .str "n"), ("position", .obj [("y", .bool true), ("x", .int 3)]),
      ("data", .obj [("api_config", .obj [("body", .str ""), ("url", .str "u")]), ("label", .str "Call"),
        ("script", .null)])]]),
    ("version", .int 2), ("name", .str "F"), ("id", .str "f")]

def tidyFlow : Flow :=
  ⟨"f", "F", none,
    [⟨"n", .api, ⟨.real 3.0, .real 1.0⟩, ⟨"Call", none, none, none, some ⟨"u", .get, none, some ""⟩⟩⟩],
    [⟨"c", "n", "n", none⟩]⟩

theorem normal_form_of_an_untidy_document :
    Flow.ofJson 0 untidyDocument = .ok tidyFlow ∧
    (∀ n ∈ tidyFlow.nodes, n.position.x.Finite ∧ n.position.y.Finite) ∧
    Shape.flow untidyDocument = some tidyFlow.json ∧ Flow.ofJson 0 tidyFlow.json = .ok tidyFlow := by
  have hfinite : ∀ n ∈ tidyFlow.nodes, n.position.x.Finite ∧ n.position.y.Finite := by
    intro n hn
    rw [List.mem_singleton.mp hn]
    constructor
    · show Float.isFinite 3.0 = true
      decide +kernel
    · show Float.isFinite 1.0 = true
      decide +kernel
  have hdecoded : Flow.ofJson 0 untidyDocument = .ok tidyFlow := rfl
  obtain ⟨hnormal, hagain⟩ := decoding_normalises hdecoded
  exact ⟨hdecoded, hfinite, hnormal, hagain hfinite 0⟩

end StepFlow
