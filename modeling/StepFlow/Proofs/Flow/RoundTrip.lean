/-
  StepFlow.Proofs.Flow.RoundTrip — a flow's document is read as the flow.

  The headers of a call are a map, so each is there once. A coordinate that is infinite or NaN
  has no number in the standard. Every flow without such a coordinate (`Flow.Documented`)
  comes back as it was, at any layout and with whatever fields are absent.

  Proved:
  - `optional_decoded`, `required_decoded`, `collect_decoded`: fields and lists, once for all.
  - `finite_flow_decoded`: the decoder undoes the encoder.
  - `flow_printable`: a flow's document can be written.
  - `documents_round_trip`: writing and reading a flow gives the flow.
-/

import StepFlow.Flow.Document
import StepFlow.Proofs.Json.RoundTrip

namespace StepFlow

/-- A double that JSON has a number for. -/
def Coordinate.Finite : Coordinate → Prop
  | .real x => x.isFinite = true
  | .nan _ => False

/-- A flow that a document of the standard can hold. -/
structure Flow.Documented (f : Flow) : Prop where
  finite : ∀ n ∈ f.nodes, n.position.x.Finite ∧ n.position.y.Finite
  headers : ∀ n ∈ f.nodes, ∀ c ∈ n.data.apiConfig, ∀ hs ∈ c.headers, (hs.map (·.1)).Nodup

/-! ## Fields -/

namespace Decode

variable {α : Type}

theorem find_cons (members : List (String × Json)) (s : String) (spellings : List String) :
    find members (s :: spellings) =
      match Json.member? members s with
      | some j => some (s, j)
      | none => find members spellings := by
  unfold find
  rw [List.findSome?_cons]
  cases Json.member? members s <;> rfl

theorem required_decoded {whole : Json} {members : List (String × Json)} {path : Path} {name : String}
    {decode : Decoder α} {a : α} {j : Json} (hfind : Json.member? members name = some j)
    (hdecode : ∀ path, decode path j = .good a) : required whole members path name decode = .good a := by
  unfold required
  rw [find_cons, hfind]
  exact hdecode _

theorem withDefault_decoded {members : List (String × Json)} {path : Path} {name : String} {default : α}
    {decode : Decoder α} {a : α} {j : Json} (hfind : Json.member? members name = some j)
    (hdecode : ∀ path, decode path j = .good a) : withDefault members path name default decode = .good a := by
  unfold withDefault
  rw [find_cons, hfind]
  exact hdecode _

/-- A field that is left out when absent, under its first spelling. -/
theorem optional_decoded {members : List (String × Json)} {path : Path} {name : String} {others : List String}
    {decode : Decoder α} {encode : α → Json} {o : Option α} (hfind : Json.member? members name = o.map encode)
    (hothers : ∀ s ∈ others, Json.member? members s = none) (hnull : ∀ a, encode a ≠ .null)
    (hdecode : ∀ a ∈ o, ∀ path, decode path (encode a) = .good a) :
    optional members path (name :: others) decode = .good o := by
  unfold optional
  rw [find_cons, hfind]
  cases o with
  | none =>
    have hnone : find members others = none := by
      rw [find, List.findSome?_eq_none_iff]
      intro s hs
      rw [hothers s hs]
      rfl
    dsimp only [Option.map_none]
    rw [hnone]
    rfl
  | some a =>
    have hnot := hnull a
    have hgood := hdecode a rfl
    dsimp only [Option.map_some]
    generalize encode a = j at *
    cases j with
    | null => exact absurd rfl hnot
    | _ => exact congrArg (some <$> ·) (hgood _)

theorem collect_decoded {encode : α → Json} {decode : Nat → Decoder α} (path : Path) (as : List α)
    (h : ∀ a ∈ as, ∀ i path, decode i path (encode a) = .good a) (index : Nat) :
    list.collect decode path index (as.map encode) = .good as := by
  induction as generalizing index with
  | nil => rfl
  | cons a as ih =>
    rw [List.map_cons, list.collect, h a List.mem_cons_self, ih fun b hb => h b (List.mem_cons_of_mem a hb)]
    rfl

end Decode

/-! ## Members -/

namespace Encode

def apiMembers (c : ApiConfig) : List (String × Json) :=
  [("url", .str c.url), ("method", .str c.method.text)]
    ++ optional "headers" headers c.headers ++ optional "body" .str c.body

def dataMembers (d : NodeData) : List (String × Json) :=
  [("label", .str d.label)] ++ optional "description" .str d.description
    ++ optional "script" .str d.script ++ optional "condition" .str d.condition
    ++ optional "apiConfig" apiConfig d.apiConfig

def connectionMembers (c : Connection) : List (String × Json) :=
  [("id", .str c.id), ("source", .str c.source), ("target", .str c.target)]
    ++ optional "sourcePort" .str c.sourcePort

def flowMembers (f : Flow) : List (String × Json) :=
  [("id", .str f.id), ("name", .str f.name)] ++ optional "description" .str f.description
    ++ [("nodes", .arr (f.nodes.map node)), ("connections", .arr (f.connections.map connection))]

/-- Where a field that may be absent is found. -/
@[simp] theorem lookup_optional {α : Type} (name key : String) (encode : α → Json) (o : Option α) :
    (optional name encode o).lookup key = if key == name then o.map encode else none := by
  cases o with
  | none => exact (ite_self none).symm
  | some a =>
    rw [optional, List.lookup_cons]
    cases key == name <;> rfl

theorem names_optional {α : Type} (name : String) (encode : α → Json) (o : Option α) :
    ((optional name encode o).map (·.1)).Sublist [name] := by
  cases o with
  | none => exact List.nil_sublist _
  | some a => exact List.Sublist.refl _

end Encode

/-! ## Decoding what is encoded -/

theorem type_decoded (t : NodeType) (path : Path) : Decode.nodeType path (.str t.text) = .good t := by
  cases t <;> rfl

theorem method_decoded (m : Method) (path : Path) : Decode.method path (.str m.text) = .good m := by
  cases m <;> rfl

theorem coordinate_decoded (label : Nat) {c : Coordinate} (hc : c.Finite) (path : Path) :
    Decode.coordinate label path (.float c.float) = .good c := by
  cases c with
  | real x =>
    show Checked.good (Decode.Coordinate.ofFloat documentNan x) = _
    unfold Decode.Coordinate.ofFloat
    rw [(Binary64.not_of_finite hc).1]
    rfl
  | nan => cases hc

theorem position_decoded (origin : Origin) (label : Nat) {p : Position} (hp : p.x.Finite ∧ p.y.Finite) (path : Path) :
    Decode.position origin label path (Encode.position p) = .good p := by
  unfold Decode.position Encode.position Decode.model
  dsimp only
  rw [Decode.required_decoded (a := p.x) rfl (coordinate_decoded label hp.1),
    Decode.required_decoded (a := p.y) rfl (coordinate_decoded (label + 1) hp.2)]
  rfl

theorem headers_decoded (hs : Headers) (path : Path) : Decode.headers path (Encode.headers hs) = .good hs := by
  show Decode.headers.collect path (hs.map fun h => (h.1, .str h.2)) = _
  induction hs with
  | nil => rfl
  | cons h hs ih =>
    rw [List.map_cons, Decode.headers.collect, ih]
    rfl

theorem apiConfig_decoded (origin : Origin) (c : ApiConfig) (path : Path) :
    Decode.apiConfig origin path (Encode.apiConfig c) = .good c := by
  have hheaders : Json.member? (Encode.apiMembers c) "headers" = c.headers.map Encode.headers := by
    simp [Json.member?, Encode.apiMembers, List.lookup_append, List.lookup_cons]
  have hbody : Json.member? (Encode.apiMembers c) "body" = c.body.map .str := by
    simp [Json.member?, Encode.apiMembers, List.lookup_append, List.lookup_cons]
  unfold Decode.apiConfig Decode.model
  show ApiConfig.mk <$> Decode.required _ (Encode.apiMembers c) _ _ _
    <*> Decode.withDefault (Encode.apiMembers c) _ _ _ _ <*> Decode.optional (Encode.apiMembers c) _ _ _
    <*> Decode.optional (Encode.apiMembers c) _ _ _ = _
  rw [Decode.required_decoded (a := c.url) rfl fun _ => rfl,
    Decode.withDefault_decoded (a := c.method) rfl (method_decoded c.method),
    Decode.optional_decoded hheaders (List.forall_mem_nil _) (fun _ => nofun) fun hs _ => headers_decoded hs,
    Decode.optional_decoded hbody (List.forall_mem_nil _) (fun _ => nofun) fun _ _ _ => rfl]
  rfl

theorem nodeData_decoded (origin : Origin) (d : NodeData) (path : Path) :
    Decode.nodeData origin path (Encode.nodeData d) = .good d := by
  have hdescription : Json.member? (Encode.dataMembers d) "description" = d.description.map .str := by
    simp [Json.member?, Encode.dataMembers, List.lookup_append, List.lookup_cons]
  have hscript : Json.member? (Encode.dataMembers d) "script" = d.script.map .str := by
    simp [Json.member?, Encode.dataMembers, List.lookup_append, List.lookup_cons]
  have hcondition : Json.member? (Encode.dataMembers d) "condition" = d.condition.map .str := by
    simp [Json.member?, Encode.dataMembers, List.lookup_append, List.lookup_cons]
  have hconfig : Json.member? (Encode.dataMembers d) "apiConfig" = d.apiConfig.map Encode.apiConfig := by
    simp [Json.member?, Encode.dataMembers, List.lookup_append, List.lookup_cons]
  have hother : ∀ s ∈ ["api_config"], Json.member? (Encode.dataMembers d) s = none := by
    simp [Json.member?, Encode.dataMembers, List.lookup_append, List.lookup_cons]
  unfold Decode.nodeData Decode.model
  show NodeData.mk <$> Decode.required _ (Encode.dataMembers d) _ _ _ <*> Decode.optional (Encode.dataMembers d) _ _ _
    <*> Decode.optional (Encode.dataMembers d) _ _ _ <*> Decode.optional (Encode.dataMembers d) _ _ _
    <*> Decode.optional (Encode.dataMembers d) _ _ _ = _
  rw [Decode.required_decoded (a := d.label) rfl fun _ => rfl,
    Decode.optional_decoded hdescription (List.forall_mem_nil _) (fun _ => nofun) fun _ _ _ => rfl,
    Decode.optional_decoded hscript (List.forall_mem_nil _) (fun _ => nofun) fun _ _ _ => rfl,
    Decode.optional_decoded hcondition (List.forall_mem_nil _) (fun _ => nofun) fun _ _ _ => rfl,
    Decode.optional_decoded hconfig hother (fun _ => nofun) fun c _ => apiConfig_decoded origin c]
  rfl

theorem node_decoded (origin : Origin) (label : Nat) {n : Node} (hn : n.position.x.Finite ∧ n.position.y.Finite)
    (path : Path) : Decode.node origin label path (Encode.node n) = .good n := by
  unfold Decode.node Encode.node Decode.model
  dsimp only
  rw [Decode.required_decoded (a := n.id) rfl fun _ => rfl,
    Decode.required_decoded (a := n.type) rfl (type_decoded n.type),
    Decode.withDefault_decoded (a := n.position) rfl (position_decoded origin label hn),
    Decode.required_decoded (a := n.data) rfl (nodeData_decoded origin n.data)]
  rfl

theorem connection_decoded (origin : Origin) (c : Connection) (path : Path) :
    Decode.connection origin path (Encode.connection c) = .good c := by
  have hport : Json.member? (Encode.connectionMembers c) "sourcePort" = c.sourcePort.map .str := by
    simp [Json.member?, Encode.connectionMembers, List.lookup_cons]
  have hother : ∀ s ∈ ["source_port"], Json.member? (Encode.connectionMembers c) s = none := by
    simp [Json.member?, Encode.connectionMembers, List.lookup_cons]
  unfold Decode.connection Decode.model
  show Connection.mk <$> Decode.required _ (Encode.connectionMembers c) _ _ _
    <*> Decode.required _ (Encode.connectionMembers c) _ _ _ <*> Decode.required _ (Encode.connectionMembers c) _ _ _
    <*> Decode.optional (Encode.connectionMembers c) _ _ _ = _
  rw [Decode.required_decoded (a := c.id) rfl fun _ => rfl, Decode.required_decoded (a := c.source) rfl fun _ => rfl,
    Decode.required_decoded (a := c.target) rfl fun _ => rfl,
    Decode.optional_decoded hport hother (fun _ => nofun) fun _ _ _ => rfl]
  rfl

/-- The decoder undoes the encoder. -/
theorem finite_flow_decoded (origin : Origin) (label : Nat) {f : Flow}
    (hf : ∀ n ∈ f.nodes, n.position.x.Finite ∧ n.position.y.Finite) (path : Path) :
    Decode.flow origin label path f.json = .good f := by
  have hdescription : Json.member? (Encode.flowMembers f) "description" = f.description.map .str := by
    simp [Json.member?, Encode.flowMembers, List.lookup_append, List.lookup_cons]
  have hnodes : Json.member? (Encode.flowMembers f) "nodes" = some (.arr (f.nodes.map Encode.node)) := by
    simp [Json.member?, Encode.flowMembers, List.lookup_append, List.lookup_cons]
  have hconnections : Json.member? (Encode.flowMembers f) "connections" =
      some (.arr (f.connections.map Encode.connection)) := by
    simp [Json.member?, Encode.flowMembers, List.lookup_append, List.lookup_cons]
  unfold Decode.flow Decode.model
  show Flow.mk <$> Decode.required _ (Encode.flowMembers f) _ _ _ <*> Decode.required _ (Encode.flowMembers f) _ _ _
    <*> Decode.optional (Encode.flowMembers f) _ _ _ <*> Decode.withDefault (Encode.flowMembers f) _ _ _ _
    <*> Decode.withDefault (Encode.flowMembers f) _ _ _ _ = _
  rw [Decode.required_decoded (a := f.id) rfl fun _ => rfl, Decode.required_decoded (a := f.name) rfl fun _ => rfl,
    Decode.optional_decoded hdescription (List.forall_mem_nil _) (fun _ => nofun) fun _ _ _ => rfl,
    Decode.withDefault_decoded hnodes fun path =>
      Decode.collect_decoded path f.nodes (fun n hn i => node_decoded origin (label + 2 * i) (hf n hn)) 0,
    Decode.withDefault_decoded hconnections fun path =>
      Decode.collect_decoded path f.connections (fun c _ _ => connection_decoded origin c) 0]
  rfl

theorem flow_decoded (origin : Origin) (label : Nat) {f : Flow} (hf : f.Documented) (path : Path) :
    Decode.flow origin label path f.json = .good f := finite_flow_decoded origin label hf.finite path

/-! ## What is encoded can be written -/

open Json (Printable PrintableItems PrintableMembers)

theorem printableItems_map {α : Type} {encode : α → Json} {as : List α} (h : ∀ a ∈ as, Printable (encode a)) :
    PrintableItems (as.map encode) := by
  induction as with
  | nil => trivial
  | cons a as ih => exact ⟨h a List.mem_cons_self, ih fun b hb => h b (List.mem_cons_of_mem a hb)⟩

theorem printableMembers_append {ms ns : List (String × Json)} (hm : PrintableMembers ms) (hn : PrintableMembers ns) :
    PrintableMembers (ms ++ ns) := by
  induction ms with
  | nil => exact hn
  | cons m ms ih => exact ⟨hm.1, ih hm.2⟩

theorem printable_optional {α : Type} {name : String} {encode : α → Json} {o : Option α}
    (h : ∀ a ∈ o, Printable (encode a)) : PrintableMembers (Encode.optional name encode o) := by
  cases o with
  | none => trivial
  | some a => exact ⟨h a rfl, trivial⟩

theorem coordinate_printable {c : Coordinate} (hc : c.Finite) : Printable (.float c.float) := by
  cases c with
  | real x => exact hc
  | nan => cases hc

theorem headers_printable {hs : Headers} (h : (hs.map (·.1)).Nodup) : Printable (Encode.headers hs) := by
  refine ⟨?_, ?_⟩
  · clear h
    induction hs with
    | nil => trivial
    | cons h hs ih => exact ⟨trivial, ih⟩
  · rwa [List.map_map]

theorem apiConfig_printable {c : ApiConfig} (hc : ∀ hs ∈ c.headers, (hs.map (·.1)).Nodup) :
    Printable (Encode.apiConfig c) := by
  refine ⟨?_, ?_⟩
  · exact printableMembers_append (printableMembers_append ⟨trivial, trivial, trivial⟩
      (printable_optional fun hs h => headers_printable (hc hs h))) (printable_optional fun _ _ => trivial)
  · refine List.Nodup.sublist ?_ (show (["url", "method"] ++ ["headers"] ++ ["body"]).Nodup by decide)
    rw [List.map_append, List.map_append]
    exact ((List.Sublist.refl _).append (Encode.names_optional _ _ _)).append (Encode.names_optional _ _ _)

theorem nodeData_printable {d : NodeData} (hd : ∀ c ∈ d.apiConfig, ∀ hs ∈ c.headers, (hs.map (·.1)).Nodup) :
    Printable (Encode.nodeData d) := by
  refine ⟨?_, ?_⟩
  · refine printableMembers_append (printableMembers_append (printableMembers_append (printableMembers_append
      ⟨trivial, trivial⟩ ?_) ?_) ?_) ?_
    · exact printable_optional fun _ _ => trivial
    · exact printable_optional fun _ _ => trivial
    · exact printable_optional fun _ _ => trivial
    · exact printable_optional fun c hc => apiConfig_printable (hd c hc)
  · refine List.Nodup.sublist ?_ (show (["label"] ++ ["description"] ++ ["script"] ++ ["condition"]
      ++ ["apiConfig"]).Nodup by decide)
    rw [List.map_append, List.map_append, List.map_append, List.map_append]
    exact ((((List.Sublist.refl _).append (Encode.names_optional _ _ _)).append (Encode.names_optional _ _ _)).append
      (Encode.names_optional _ _ _)).append (Encode.names_optional _ _ _)

theorem node_printable {n : Node} (hn : n.position.x.Finite ∧ n.position.y.Finite)
    (hd : ∀ c ∈ n.data.apiConfig, ∀ hs ∈ c.headers, (hs.map (·.1)).Nodup) : Printable (Encode.node n) := by
  have hposition : Printable (Encode.position n.position) :=
    ⟨⟨coordinate_printable hn.1, coordinate_printable hn.2, trivial⟩, show ["x", "y"].Nodup by decide⟩
  exact ⟨⟨trivial, trivial, hposition, nodeData_printable hd, trivial⟩,
    show ["id", "type", "position", "data"].Nodup by decide⟩

theorem connection_printable (c : Connection) : Printable (Encode.connection c) := by
  refine ⟨printableMembers_append ⟨trivial, trivial, trivial, trivial⟩ (printable_optional fun _ _ => trivial), ?_⟩
  refine List.Nodup.sublist ?_ (show (["id", "source", "target"] ++ ["sourcePort"]).Nodup by decide)
  rw [List.map_append]
  exact (List.Sublist.refl _).append (Encode.names_optional _ _ _)

/-- A flow's document can be written. -/
theorem flow_printable {f : Flow} (hf : f.Documented) : Printable f.json := by
  have hnodes : PrintableItems (f.nodes.map Encode.node) :=
    printableItems_map fun n hn => node_printable (hf.finite n hn) (hf.headers n hn)
  have hconnections : PrintableItems (f.connections.map Encode.connection) :=
    printableItems_map fun c _ => connection_printable c
  refine ⟨?_, ?_⟩
  · exact printableMembers_append (printableMembers_append ⟨trivial, trivial, trivial⟩
      (printable_optional fun _ _ => trivial)) ⟨hnodes, hconnections, trivial⟩
  · refine List.Nodup.sublist ?_ (show (["id", "name"] ++ ["description"] ++ ["nodes", "connections"]).Nodup by decide)
    rw [List.map_append, List.map_append]
    exact ((List.Sublist.refl _).append (Encode.names_optional _ _ _)).append (List.Sublist.refl _)

/-! ## The round trip -/

/-- A flow's text, at any layout, is read as the flow. -/
theorem documents_round_trip (l : Json.Layout) (label : Nat) {f : Flow} (hf : f.Documented) :
    Flow.read label (f.write l) = .ok f := by
  have hjson : Flow.readJson (f.write l) = .ok f.json := by
    unfold Flow.readJson Flow.write
    rw [Json.read_write l (flow_printable hf)]
  have hflow : Flow.ofJson label f.json = .ok f := by
    unfold Flow.ofJson
    rw [flow_decoded .document label hf]
  unfold Flow.read
  rw [hjson]
  exact hflow

/-- A flow of one call with a header, whose texts need escapes. -/
def callingFlow : Flow :=
  ⟨"f", "quotes \" and \\", none,
    [⟨"n", .api, ⟨.real 120.5, .real (-0.1)⟩,
      ⟨"call\n", some "", none, none, some ⟨"http://h", .post, some [("A", "é𝄞")], none⟩⟩⟩],
    [⟨"c", "n", "n", some "in"⟩]⟩

theorem round_trip_of_a_call : callingFlow.Documented ∧
    Flow.read 0 (callingFlow.write (some Flow.indent)) = .ok callingFlow ∧
    Flow.read 0 (callingFlow.write none) = .ok callingFlow := by
  have hcalling : callingFlow.Documented := by
    refine ⟨fun n hn => ?_, fun n hn => ?_⟩
    · rw [List.mem_singleton.mp hn]
      constructor
      · show Float.isFinite 120.5 = true
        decide +kernel
      · show Float.isFinite (-0.1) = true
        decide +kernel
    · rw [List.mem_singleton.mp hn]
      intro c hc hs hhs
      cases hc
      cases hhs
      exact List.nodup_singleton _
  exact ⟨hcalling, documents_round_trip _ 0 hcalling, documents_round_trip _ 0 hcalling⟩

end StepFlow
