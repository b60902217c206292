import ClientGen.Document.Description
import ClientGen.Proofs.Schema.Outline

/-!
# The outline of a document

`Document.describe` gives a description and notes what it could not express. Places occur in the
notes and in the pointers of models and operations, and nowhere else. The *outline* of a part of a
document is what it becomes without the notes.

* `Document.outline` — the outline of a document.
* `Document.value_describe` — the description of a document is its outline.
* `Document.Parameter.outline?`, `Document.RequestBody.outline?`, `Document.Response.outline`,
  `Document.Endpoint.outline` — the outlines of its parts.
* `Document.Endpoint.forall_shapes_outline` — what holds of the shapes of an operation.
-/

namespace ClientGen.Document

/-! ## Outlines -/

/-- The outline of a schema that should be there. -/
def outlineOrUnknown (schema : Option Schema) : Shape :=
  (schema.map Schema.outline).getD .unknown

/-- The outline of a parameter, unless it travels in an unknown way. -/
def Parameter.outline? (p : Parameter) : Option ClientGen.Parameter :=
  (Location.ofName? p.location).map fun location =>
    { name := p.name, location, required := p.required.getD (location == .path)
      shape := outlineOrUnknown p.schema, doc := p.description }

/-- The outline of the body of a request, if any of its representations can be used. -/
def RequestBody.outline? (b : RequestBody) : Option Body :=
  (preferredMedia? b.content).map fun (mediaType, media) =>
    { shape := outlineOrUnknown media.schema, mediaType, kind := MediaType.kind mediaType
      required := b.required, doc := b.description }

/-- The outline of a response. -/
def Response.outline (status : String) (r : Response) : ClientGen.Response :=
  { status
    shape := (preferredMedia? r.content).map fun (_, media) => outlineOrUnknown media.schema
    isDefault := status == "default"
    mediaType := (preferredMedia? r.content).map (·.1)
    kind := ((preferredMedia? r.content).map fun (mediaType, _) =>
      MediaType.kind mediaType).getD .unknown
    doc := r.description }

/-- The outline of an operation. -/
def Endpoint.outline (defaultTag id : String) (e : Endpoint) : ClientGen.Operation :=
  { id
    method := e.method
    path := e.path
    tags := [e.operation.tags.head?.getD defaultTag]
    parameters := e.item.parameters.filterMap Parameter.outline? ++
      e.operation.parameters.filterMap Parameter.outline?
    body := e.operation.body.bind RequestBody.outline?
    responses := e.operation.responses.map fun (status, r) => r.outline status
    doc := e.operation.description.or e.operation.summary
    pointer := some e.pointer }

/-- The place of the schema with a key. -/
def schemaPointer (key : String) : String :=
  Pointer.child "#/components/schemas" key

/-- The outline of the schema of a model. -/
def modelOutline (name key : String) (s : Schema) : Model :=
  { name, shape := s.outline, doc := s.description, pointer := some (schemaPointer key) }

/-- The outlines of the models of a document. -/
def modelOutlines (doc : Document) : List Model :=
  ((modelNames doc.schemas).zip doc.schemas).map fun (name, key, s) => modelOutline name key s

/-- The outlines of the operations of a document. -/
def operationOutlines (doc : Document) (defaultTag : String) : List ClientGen.Operation :=
  ((operationNames doc.endpoints).zip doc.endpoints).map fun (id, e) => e.outline defaultTag id

/-- **The outline of a document.** -/
def outline (doc : Document) (defaultTag : String) : Description :=
  let api : Api :=
    { title := (doc.info.bind (·.title)).getD "API"
      version := (doc.info.bind (·.version)).getD "0.0.0"
      models := doc.modelOutlines
      operations := doc.operationOutlines defaultTag }
  { api := api.sorted
    modelNames := takenModelNames doc.schemas
    operationNames := takenOperationNames doc.endpoints }

/-- **What holds of the outlines behind an operation** — of its parameters and those of its path, of
its body and of its responses — holds of the shapes of its outline. -/
theorem Endpoint.forall_shapes_outline {P : Shape → Prop} (e : Endpoint)
    (parameters : ∀ p ∈ e.item.parameters ++ e.operation.parameters,
      P (outlineOrUnknown p.schema))
    (body : ∀ b ∈ e.operation.body, ∀ mediaType media,
      preferredMedia? b.content = some (mediaType, media) → P (outlineOrUnknown media.schema))
    (responses : ∀ entry ∈ e.operation.responses, ∀ mediaType media,
      preferredMedia? entry.2.content = some (mediaType, media) →
        P (outlineOrUnknown media.schema)) (defaultTag id : String) :
    ∀ shape ∈ (e.outline defaultTag id).shapes, P shape := by
  intro shape member
  rcases List.mem_append.mp member with member | ofResponse
  · rcases List.mem_append.mp member with ofParameter | ofBody
    · obtain ⟨q, inside, rfl⟩ := List.mem_map.mp ofParameter
      obtain ⟨p, listed, outline⟩ : ∃ p ∈ e.item.parameters ++ e.operation.parameters,
          p.outline? = some q := by
        rw [← List.mem_filterMap, List.filterMap_append]
        exact inside
      obtain ⟨location, -, rfl⟩ := Option.map_eq_some_iff.mp outline
      exact parameters p listed
    · obtain ⟨_, present, rfl⟩ := List.mem_map.mp ofBody
      obtain ⟨b, declared, outline⟩ := Option.bind_eq_some_iff.mp (Option.mem_toList.mp present)
      obtain ⟨⟨mediaType, media⟩, preferred, rfl⟩ := Option.map_eq_some_iff.mp outline
      exact body b declared mediaType media preferred
  · obtain ⟨response, listed, given⟩ := List.mem_filterMap.mp ofResponse
    obtain ⟨⟨status, r⟩, declared, rfl⟩ := List.mem_map.mp listed
    obtain ⟨⟨mediaType, media⟩, preferred, rfl⟩ := Option.map_eq_some_iff.mp given
    exact responses _ declared mediaType media preferred

/-! ## Descriptions are outlines -/

/-- A schema that is missing has the shape of any value, whatever is noted about it. -/
theorem value_shapeOrWarn (code message pointer : String) (tokens : List String)
    (schema : Option Schema) :
    (shapeOrWarn code message pointer tokens schema).value = outlineOrUnknown schema := by
  cases schema with
  | none => rfl
  | some s => exact s.value_shape _

/-- A parameter that travels in an unknown way has no outline and is left out. -/
theorem value_parameter? (pointer : String) (p : Parameter) :
    (parameter? pointer p).value = p.outline? := by
  unfold parameter? Parameter.outline?
  cases Location.ofName? p.location with
  | none => rfl
  | some location => simp [value_shapeOrWarn]

theorem value_parameters (owner : String) (ps : List Parameter) :
    (parameters owner ps).value = ps.filterMap Parameter.outline? := by
  have each (start : Nat) :
      (ps.zipIdx start).map (fun entry => entry.1.outline?) = ps.map Parameter.outline? := by
    calc (ps.zipIdx start).map (fun entry => entry.1.outline?)
        = ((ps.zipIdx start).map Prod.fst).map Parameter.outline? := by
          rw [List.map_map]
          rfl
      _ = ps.map Parameter.outline? := by rw [List.zipIdx_map_fst]
  simp [parameters, value_parameter?, each, List.filterMap_map]

theorem value_body? (owner : String) (b : RequestBody) : (body? owner b).value = b.outline? := by
  unfold body? RequestBody.outline?
  cases preferredMedia? b.content with
  | none => rfl
  | some found => simp [value_shapeOrWarn]

/-- A response keeps its status, and a shape if it has a media type. -/
theorem value_response (pointer status : String) (r : Response) :
    (response pointer status r).value = r.outline status := by
  unfold response Response.outline
  cases preferredMedia? r.content with
  | none => rfl
  | some found => simp [value_shapeOrWarn]

theorem value_operation (defaultTag id : String) (e : Endpoint) :
    (operation defaultTag id e).value = e.outline defaultTag id := by
  unfold operation Endpoint.outline
  cases e.operation.body with
  | none => simp [value_parameters, responses, value_response]
  | some b => simp [value_parameters, responses, value_response, value_body?]

/-- Models, each under the name that it was given. -/
theorem value_models (doc : Document) : doc.models.value = doc.modelOutlines := by
  simp [models, modelOutlines, model, modelOutline, schemaPointer, Schema.value_shape]

theorem value_operations (doc : Document) (defaultTag : String) :
    (doc.operations defaultTag).value = doc.operationOutlines defaultTag := by
  simp [operations, operationOutlines, value_operation]

/-- **The description of a document is its outline.** -/
theorem value_describe (doc : Document) (defaultTag : String) :
    (doc.describe defaultTag).value = doc.outline defaultTag := by
  simp [describe, outline, value_models, value_operations]

end ClientGen.Document
