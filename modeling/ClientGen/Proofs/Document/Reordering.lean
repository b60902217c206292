import ClientGen.Proofs.Document.Outline
import ClientGen.Proofs.Schema.Reordering

/-!
# Documents in another order

A document may list its paths, its schemas, the responses of its operations and the properties of
its schemas in another order, and name what a schema requires in another order or more than once.
None of this reaches the description.

* `Document.Reordered` — two documents that differ only in such orders.
* `Document.describe_eq_of_reordered` — their descriptions are the same.

Everything else keeps its order, and the order counts: parameters, tags, media types, values of an
enumeration, and the members of `oneOf`, `anyOf` and `allOf`.
-/

namespace ClientGen

namespace Document

/-! ## The relation -/

/-- Representations whose schemas are in another order. -/
def Media.Reordered (m m' : Media) : Prop :=
  Option.Rel Schema.Reordered m.schema m'.schema

/-- The same media types, with representations in another order inside. -/
def SameContent (content content' : OrderedMap Media) : Prop :=
  List.Forall₂ (fun a b => a.1 = b.1 ∧ a.2.Reordered b.2) content content'

/-- Parameters that differ only in the order inside their schemas. -/
structure Parameter.Reordered (p p' : Parameter) : Prop where
  /-- The name is the same. -/
  name : p.name = p'.name
  /-- The place is the same. -/
  location : p.location = p'.location
  /-- Whether it is required is the same. -/
  required : p.required = p'.required
  /-- The schema is in another order. -/
  schema : Option.Rel Schema.Reordered p.schema p'.schema
  /-- The description is the same. -/
  description : p.description = p'.description

/-- Bodies that differ only in the order inside their schemas. -/
structure RequestBody.Reordered (b b' : RequestBody) : Prop where
  /-- The description is the same. -/
  description : b.description = b'.description
  /-- Whether it is required is the same. -/
  required : b.required = b'.required
  /-- The representations are in another order inside. -/
  content : SameContent b.content b'.content

/-- Responses that differ only in the order inside their schemas. -/
structure Response.Reordered (r r' : Response) : Prop where
  /-- The description is the same. -/
  description : r.description = r'.description
  /-- The representations are in another order inside. -/
  content : SameContent r.content r'.content

/-- **Operations that differ only in order**: responses may be listed in another order. -/
structure Operation.Reordered (op op' : Operation) : Prop where
  /-- The identifier is the same. -/
  id : op.id = op'.id
  /-- The summary is the same. -/
  summary : op.summary = op'.summary
  /-- The description is the same. -/
  description : op.description = op'.description
  /-- The tags are the same. -/
  tags : op.tags = op'.tags
  /-- The parameters are in another order inside. -/
  parameters : List.Forall₂ Parameter.Reordered op.parameters op'.parameters
  /-- The body is in another order inside. -/
  body : Option.Rel RequestBody.Reordered op.body op'.body
  /-- The responses agree. -/
  responses : OrderedMap.Agree Response.Reordered op.responses op'.responses

/-- Paths whose operations differ only in order. -/
structure PathItem.Reordered (item item' : PathItem) : Prop where
  /-- The operation of every method is in another order. -/
  operation (method : Method) :
    Option.Rel Operation.Reordered (item.operation? method) (item'.operation? method)
  /-- The parameters are in another order inside. -/
  parameters : List.Forall₂ Parameter.Reordered item.parameters item'.parameters

/-- **Two documents that differ only in order**: in the order of paths, schemas, responses and
properties, and in the order and the repetition of required names. -/
structure Reordered (doc doc' : Document) : Prop where
  /-- Title and version are the same. -/
  info : doc.info = doc'.info
  /-- The paths agree. -/
  paths : OrderedMap.Agree PathItem.Reordered doc.paths doc'.paths
  /-- The schemas agree. -/
  components : Option.Rel (fun c c' => OrderedMap.Agree Schema.Reordered c.schemas c'.schemas)
    doc.components doc'.components

/-! ## Representations -/

/-- A schema that is missing stays missing, and others have one canonical shape. -/
theorem sorted_outlineOrUnknown {schema schema' : Option Schema}
    (rel : Option.Rel Schema.Reordered schema schema') :
    (outlineOrUnknown schema).sorted = (outlineOrUnknown schema').sorted := by
  cases rel with
  | none => rfl
  | some reordered => exact reordered.outline_sorted

theorem SameContent.names_eq {content content' : OrderedMap Media}
    (same : SameContent content content') : content.map (·.1) = content'.map (·.1) :=
  List.Forall₂.map_eq same fun _ _ _ related => related.1

/-- Under one media type stand related representations, or none in both documents. -/
theorem SameContent.lookup {content content' : OrderedMap Media}
    (same : SameContent content content') (mediaType : String) :
    Option.Rel Media.Reordered (content.lookup mediaType) (content'.lookup mediaType) := by
  induction same with
  | nil => exact .none
  | @cons entry entry' content content' related rest ih =>
      obtain ⟨name, media⟩ := entry
      obtain ⟨other, media'⟩ := entry'
      obtain ⟨rfl, reordered⟩ := related
      rw [List.lookup_cons, List.lookup_cons]
      cases mediaType == name with
      | true => exact .some reordered
      | false => exact ih

/-- The same representation is preferred. -/
theorem SameContent.preferredMedia? {content content' : OrderedMap Media}
    (same : SameContent content content') :
    Option.Rel (fun a b => a.1 = b.1 ∧ a.2.Reordered b.2) (preferredMedia? content)
      (preferredMedia? content') := by
  unfold Document.preferredMedia?
  rw [same.names_eq]
  cases MediaType.preferred? (content'.map (·.1)) with
  | none => exact .none
  | some mediaType =>
      show Option.Rel _ ((content.lookup mediaType).map _) ((content'.lookup mediaType).map _)
      have found := same.lookup mediaType
      generalize content.lookup mediaType = media, content'.lookup mediaType = media' at found ⊢
      cases found with
      | none => exact .none
      | some reordered => exact .some ⟨rfl, reordered⟩

/-! ## Parts of operations -/

/-- A parameter with its shape in canonical order. -/
def sortedParameter (p : ClientGen.Parameter) : ClientGen.Parameter :=
  { p with shape := p.shape.sorted }

/-- A body with its shape in canonical order. -/
def sortedBody (b : Body) : Body :=
  { b with shape := b.shape.sorted }

/-- A response with its shape in canonical order. -/
def sortedResponse (r : ClientGen.Response) : ClientGen.Response :=
  { r with shape := r.shape.map Shape.sorted }

/-- Parameters in another order inside have one sorted outline, or both have none. -/
theorem Parameter.Reordered.outline_sorted {p p' : Parameter} (reordered : p.Reordered p') :
    p.outline?.map sortedParameter = p'.outline?.map sortedParameter := by
  unfold Parameter.outline?
  rw [reordered.name, reordered.location, reordered.required, reordered.description]
  cases Location.ofName? p'.location with
  | none => rfl
  | some location => simp [sortedParameter, sorted_outlineOrUnknown reordered.schema]

theorem sorted_parameterOutlines {ps ps' : List Parameter}
    (rel : List.Forall₂ Parameter.Reordered ps ps') :
    (ps.filterMap Parameter.outline?).map sortedParameter =
      (ps'.filterMap Parameter.outline?).map sortedParameter := by
  -- a parameter is left out for its place, which both lists share
  have images : ps.map (fun p => p.outline?.map sortedParameter) =
      ps'.map (fun p => p.outline?.map sortedParameter) :=
    rel.map_eq fun _ _ _ reordered => reordered.outline_sorted
  have kept (ps : List Parameter) : (ps.filterMap Parameter.outline?).map sortedParameter =
      (ps.map fun p => p.outline?.map sortedParameter).filterMap id := by
    rw [List.map_filterMap, List.filterMap_map]
    rfl
  rw [kept, kept, images]

theorem RequestBody.Reordered.outline_sorted {b b' : RequestBody} (reordered : b.Reordered b') :
    b.outline?.map sortedBody = b'.outline?.map sortedBody := by
  unfold RequestBody.outline?
  rw [Option.map_map, Option.map_map]
  refine reordered.content.preferredMedia?.map_eq ?_
  rintro ⟨mediaType, media⟩ - ⟨_, media'⟩ ⟨rfl, related⟩
  simp [sortedBody, sorted_outlineOrUnknown related, reordered.description, reordered.required]

/-- Responses in another order inside have one sorted outline. -/
theorem Response.Reordered.outline_sorted {r r' : Response} (reordered : r.Reordered r')
    (status : String) : sortedResponse (r.outline status) = sortedResponse (r'.outline status) := by
  have preferred := reordered.content.preferredMedia?
  unfold Response.outline sortedResponse
  rw [reordered.description]
  generalize preferredMedia? r.content = media, preferredMedia? r'.content = media' at preferred ⊢
  cases preferred with
  | none => rfl
  | @some a b related =>
      obtain ⟨mediaType, media⟩ := a
      obtain ⟨_, media'⟩ := b
      obtain ⟨rfl, related⟩ := related
      simp [sorted_outlineOrUnknown related]

/-- Sorting the responses of an operation by status is sorting the map that they come from. -/
theorem sorted_responseOutlines (rs : OrderedMap Response) :
    ((rs.map fun (status, r) => r.outline status).map sortedResponse).mergeSort
        (fun r s => decide (r.status ≤ s.status)) =
      rs.sorted.map fun (status, r) => sortedResponse (r.outline status) := by
  rw [List.map_map]
  refine (List.map_mergeSort ?_).symm
  rintro ⟨status, r⟩ - ⟨status', r'⟩ -
  rfl

theorem sorted_responseOutlines_eq {rs rs' : OrderedMap Response}
    (agree : OrderedMap.Agree Response.Reordered rs rs') :
    ((rs.map fun (status, r) => r.outline status).map sortedResponse).mergeSort
        (fun r s => decide (r.status ≤ s.status)) =
      ((rs'.map fun (status, r) => r.outline status).map sortedResponse).mergeSort
        (fun r s => decide (r.status ≤ s.status)) := by
  rw [sorted_responseOutlines, sorted_responseOutlines]
  refine agree.sorted.map_eq ?_
  rintro ⟨status, r⟩ - ⟨_, r'⟩ ⟨rfl, related⟩
  exact related.outline_sorted status

/-! ## Operations -/

/-- Operations of one path and method that differ only in order. -/
structure Endpoint.Reordered (e e' : Endpoint) : Prop where
  /-- The path is the same. -/
  path : e.path = e'.path
  /-- The method is the same. -/
  method : e.method = e'.method
  /-- The path has its operations in another order. -/
  item : e.item.Reordered e'.item
  /-- The operation is in another order. -/
  operation : e.operation.Reordered e'.operation

/-- Reordered operations ask for one identifier. -/
theorem Endpoint.Reordered.candidate_eq {e e' : Endpoint} (reordered : e.Reordered e') :
    e.candidate = e'.candidate := by
  rw [candidate, candidate, reordered.operation.id, reordered.method, reordered.path]

theorem Endpoint.Reordered.pointer_eq {e e' : Endpoint} (reordered : e.Reordered e') :
    e.pointer = e'.pointer := by
  rw [pointer, pointer, pathPointer, pathPointer, reordered.method, reordered.path]

theorem sorted_operation (op : ClientGen.Operation) :
    op.sorted =
      { op with
        parameters := (op.parameters.map sortedParameter).mergeSort fun p q =>
          textsLe (p.location.name, p.name) (q.location.name, q.name)
        body := op.body.map sortedBody
        responses := (op.responses.map sortedResponse).mergeSort fun r s =>
          decide (r.status ≤ s.status) } :=
  rfl

/-- **Reordered operations have one canonical form.** -/
theorem Endpoint.Reordered.outline_sorted {e e' : Endpoint} (reordered : e.Reordered e')
    (defaultTag id : String) :
    (e.outline defaultTag id).sorted = (e'.outline defaultTag id).sorted := by
  have shared := sorted_parameterOutlines reordered.item.parameters
  have own := sorted_parameterOutlines reordered.operation.parameters
  have responses := sorted_responseOutlines_eq reordered.operation.responses
  have body : (e.operation.body.bind RequestBody.outline?).map sortedBody =
      (e'.operation.body.bind RequestBody.outline?).map sortedBody := by
    have bodies := reordered.operation.body
    generalize e.operation.body = b, e'.operation.body = b' at bodies ⊢
    cases bodies with
    | none => rfl
    | some reordered => exact reordered.outline_sorted
  rw [sorted_operation, sorted_operation]
  simp only [Endpoint.outline, List.map_append]
  rw [shared, own, body, responses, reordered.method, reordered.path, reordered.pointer_eq,
    reordered.operation.tags, reordered.operation.description, reordered.operation.summary]

/-! ## Documents -/

/-- Operations of two paths that are related method by method are related in their order. -/
theorem forall₂_endpointsOf {R : Endpoint → Endpoint → Prop} {path : String}
    {item item' : PathItem}
    (each : ∀ method, Option.Rel
      (fun op op' => R ⟨path, item, method, op⟩ ⟨path, item', method, op'⟩)
        (item.operation? method) (item'.operation? method)) :
    List.Forall₂ R (endpointsOf path item) (endpointsOf path item') := by
  refine List.rel_filterMap (R := Eq) ?_ (List.forall₂_same.mpr fun _ _ => rfl)
  rintro method _ rfl
  show Option.Rel _ ((item.operation? method).map _) ((item'.operation? method).map _)
  have operations := each method
  generalize item.operation? method = op, item'.operation? method = op' at operations ⊢
  cases operations with
  | none => exact .none
  | some related => exact .some related

/-- Identifiers depend on what the endpoints ask for and on nothing else. -/
theorem operationNames_congr {es es' : List Endpoint}
    (same : es.map (·.candidate) = es'.map (·.candidate)) :
    operationNames es = operationNames es' := by
  rw [operationNames, operationNames, same]

namespace Reordered

variable {doc doc' : Document}

/-- The schemas of reordered documents, in ascending order of their names. -/
theorem schemas (reordered : doc.Reordered doc') :
    List.Forall₂ (fun a b => a.1 = b.1 ∧ a.2.Reordered b.2) doc.schemas doc'.schemas := by
  have components := reordered.components
  unfold Document.schemas
  generalize doc.components = c, doc'.components = c' at components ⊢
  cases components with
  | none => exact OrderedMap.Agree.nil.sorted
  | some agree => exact agree.sorted

/-- The schemas of reordered documents ask for the same names in the same order. -/
theorem map_pascalCase_eq (reordered : doc.Reordered doc') :
    (doc.schemas.map fun s => Naming.pascalCase s.1) =
      doc'.schemas.map fun s => Naming.pascalCase s.1 :=
  reordered.schemas.map_eq fun _ _ _ related => congrArg Naming.pascalCase related.1

/-- Models have the same names: names are handed out in the order of the sorted schemas. -/
theorem modelNames_eq (reordered : doc.Reordered doc') :
    modelNames doc.schemas = modelNames doc'.schemas := by
  rw [modelNames, modelNames, reordered.map_pascalCase_eq]

theorem takenModelNames_eq (reordered : doc.Reordered doc') :
    takenModelNames doc.schemas = takenModelNames doc'.schemas := by
  rw [takenModelNames, takenModelNames, reordered.map_pascalCase_eq]

/-- The operations of a path, in the order of the methods. -/
theorem endpointsOf {path : String} {item item' : PathItem} (reordered : item.Reordered item') :
    List.Forall₂ Endpoint.Reordered (endpointsOf path item) (Document.endpointsOf path item') :=
  forall₂_endpointsOf fun method =>
    (reordered.operation method).imp fun related => ⟨rfl, rfl, reordered, related⟩

/-- The operations of reordered documents, in the order of their paths and methods. -/
theorem endpoints (reordered : doc.Reordered doc') :
    List.Forall₂ Endpoint.Reordered doc.endpoints doc'.endpoints := by
  refine List.rel_flatMap reordered.paths.sorted ?_
  rintro ⟨path, item⟩ ⟨_, item'⟩ ⟨rfl, related⟩
  exact endpointsOf related

/-- The operations of reordered documents ask for the same identifiers in the same order. -/
theorem map_candidate_eq (reordered : doc.Reordered doc') :
    doc.endpoints.map (·.candidate) = doc'.endpoints.map (·.candidate) :=
  reordered.endpoints.map_eq fun _ _ _ related => related.candidate_eq

/-- Operations have the same identifiers. -/
theorem operationNames_eq (reordered : doc.Reordered doc') :
    operationNames doc.endpoints = operationNames doc'.endpoints :=
  operationNames_congr reordered.map_candidate_eq

theorem takenOperationNames_eq (reordered : doc.Reordered doc') :
    takenOperationNames doc.endpoints = takenOperationNames doc'.endpoints := by
  rw [takenOperationNames, takenOperationNames, reordered.map_candidate_eq]

end Reordered

/-- Names are paired with related values place by place. -/
theorem zip_forall₂ {α β γ : Type} {R : α → β → Prop} {as : List α} {bs : List β}
    (rel : List.Forall₂ R as bs) (names : List γ) :
    List.Forall₂ (fun p q => p.1 = q.1 ∧ R p.2 q.2) (names.zip as) (names.zip bs) := by
  induction rel generalizing names with
  | nil => simp
  | cons related rest ih =>
      cases names with
      | nil => exact .nil
      | cons name names => exact .cons ⟨rfl, related⟩ (ih names)

/-- **Only the order differs, and the descriptions are the same**: the same models and operations
in the same order, with the same names. -/
theorem describe_eq_of_reordered {doc doc' : Document} (reordered : doc.Reordered doc')
    (defaultTag : String) : (doc.describe defaultTag).value = (doc'.describe defaultTag).value := by
  have models : (doc.modelOutlines.map fun m => { m with shape := m.shape.sorted }) =
      doc'.modelOutlines.map fun m => { m with shape := m.shape.sorted } := by
    unfold modelOutlines
    rw [List.map_map, List.map_map, reordered.modelNames_eq]
    refine (zip_forall₂ reordered.schemas _).map_eq ?_
    rintro ⟨name, key, s⟩ - ⟨_, _, s'⟩ ⟨rfl, rfl, related⟩
    simp [modelOutline, related.outline_sorted, related.description_eq]
  have operations : (doc.operationOutlines defaultTag).map ClientGen.Operation.sorted =
      (doc'.operationOutlines defaultTag).map ClientGen.Operation.sorted := by
    unfold operationOutlines
    rw [List.map_map, List.map_map, reordered.operationNames_eq]
    refine (zip_forall₂ reordered.endpoints _).map_eq ?_
    rintro ⟨id, e⟩ - ⟨_, e'⟩ ⟨rfl, related⟩
    exact related.outline_sorted defaultTag id
  -- what is left depends on nothing but names, and those are given in ascending order
  rw [value_describe, value_describe]
  simp only [outline, Api.sorted]
  rw [models, operations, reordered.info, reordered.takenModelNames_eq,
    reordered.takenOperationNames_eq]

/-- Two entries agree with the same two entries in the other order. -/
theorem agree_swap {α β : Type} {R : α → β → Prop} {name other : String} (differs : name ≠ other)
    {a b : α} {a' b' : β} (first : R a a') (second : R b b') :
    OrderedMap.Agree R [(name, a), (other, b)] [(other, b'), (name, a')] := by
  have rest : OrderedMap.Agree R [(other, b)] ([] ++ (other, b') :: []) :=
    .cons (by simp) second .nil
  show OrderedMap.Agree R _ ([(other, b')] ++ (name, a') :: [])
  exact .cons (by simpa using differs) first rest

/-- A schema of one named type. -/
def namedSchema (name : String) : Schema :=
  .keywords { Keywords.blank with type := some (.single name) }

/-- A schema of objects with an identifier and a tag. -/
def petSchema (properties : List (String × Schema)) (required : List String) : Schema :=
  .keywords { Keywords.blank with
    type := some (.single "object")
    properties := some properties
    required := some required }

/-- A path that answers with a body or without. -/
def petPath (responses : OrderedMap Response) : PathItem :=
  { get := some { id := some "pets", responses } }

/-- A response with a body. -/
def petResponse : Response :=
  { content := [("application/json", { schema := some (namedSchema "string") })] }

/-- A document with two schemas whose names collide. -/
def collidingPets : Document :=
  { paths := [("/pets", petPath [("200", petResponse), ("404", {})]), ("/", petPath [])]
    components := some { schemas :=
      [("pet", petSchema [("id", namedSchema "integer"), ("tag", namedSchema "string")] ["id"]),
        ("Pet", namedSchema "string")] } }

/-- The same document in another order. -/
def reorderedPets : Document :=
  { paths := [("/", petPath []), ("/pets", petPath [("404", {}), ("200", petResponse)])]
    components := some { schemas :=
      [("Pet", namedSchema "string"),
        ("pet", petSchema [("tag", namedSchema "string"), ("id", namedSchema "integer")]
          ["id", "id"])] } }

theorem namedSchema_reordered (name : String) :
    (namedSchema name).Reordered (namedSchema name) :=
  .keywords (.intro .none .none .none .none .none .none .none)

theorem petSchema_reordered :
    (petSchema [("id", namedSchema "integer"), ("tag", namedSchema "string")] ["id"]).Reordered
      (petSchema [("tag", namedSchema "string"), ("id", namedSchema "integer")] ["id", "id"]) := by
  have properties := agree_swap (R := Schema.Reordered) (show "id" ≠ "tag" by decide)
    (namedSchema_reordered "integer") (namedSchema_reordered "string")
  have required : SameNames ["id"] ["id", "id"] := fun name => by simp
  exact .keywords (.intro (.some properties) (.some required) .none .none .none .none .none)

theorem petPath_reordered {responses responses' : OrderedMap Response}
    (agree : OrderedMap.Agree Response.Reordered responses responses') :
    (petPath responses).Reordered (petPath responses') := by
  refine ⟨fun method => ?_, .nil⟩
  cases method with
  | get => exact .some ⟨rfl, rfl, rfl, rfl, .nil, .none, agree⟩
  | _ => exact .none

theorem petResponse_reordered : petResponse.Reordered petResponse :=
  ⟨rfl, .cons ⟨rfl, .some (namedSchema_reordered "string")⟩ .nil⟩

/-- Two schemas ask for one name here, and paths, responses, schemas, properties and required names
are in other orders. -/
theorem describe_collidingPets : collidingPets.Reordered reorderedPets ∧
    (collidingPets.describe "default").value = (reorderedPets.describe "default").value := by
  have bodiless : Response.Reordered {} {} := ⟨rfl, .nil⟩
  have responses := agree_swap (R := Response.Reordered) (show "200" ≠ "404" by decide)
    petResponse_reordered bodiless
  have reordered : collidingPets.Reordered reorderedPets :=
    { info := rfl
      paths := agree_swap (by decide) (petPath_reordered responses) (petPath_reordered .nil)
      components := .some
        (agree_swap (by decide) petSchema_reordered (namedSchema_reordered "string")) }
  exact ⟨reordered, describe_eq_of_reordered reordered "default"⟩

end Document

end ClientGen
