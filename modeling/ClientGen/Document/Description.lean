import ClientGen.Api.Basic
import ClientGen.Document.Basic
import ClientGen.Document.Normal

/-!
# The description of an API in a document

* `Document.describe` — the description, in canonical order, with the diagnostics on the way to it.
* `Document.models`, `Document.operations` — its two parts, in the order of the document's names.
* `Description` — the description and the names that it uses.

**Order.** Schemas and paths are taken in ascending order of their names, and the operations of a
path in the order of `Method.all`, so that the order in which a document lists them does not matter:
names are given and diagnostics noted in the order of names.
-/

namespace ClientGen

/-- **The description of an API**, with the names that have been taken for it. -/
structure Description where
  /-- The description. -/
  api : Api
  /-- The names that are taken for models. -/
  modelNames : List String
  /-- The identifiers that are taken for operations. -/
  operationNames : List String
  deriving Inhabited

namespace Document

/-- The model of a schema. -/
def model (name key : String) (s : Schema) : Noted Model := do
  let pointer := Pointer.child "#/components/schemas" key
  let shape ← s.shape (some pointer)
  return { name, shape, doc := s.description, pointer := some pointer }

/-- The schemas of a document, in ascending order of their names. -/
def schemas (doc : Document) : List (String × Schema) :=
  OrderedMap.sorted ((doc.components.map (·.schemas)).getD [])

/-- The names of the models for schemas, all different. -/
def modelNames (schemas : List (String × Schema)) : List String :=
  (Naming.uniqueAll [] (schemas.map fun s => Naming.pascalCase s.1)).1

/-- The names that are taken once every schema has one. -/
def takenModelNames (schemas : List (String × Schema)) : List String :=
  (Naming.uniqueAll [] (schemas.map fun s => Naming.pascalCase s.1)).2

/-- **The models of a document.** -/
def models (doc : Document) : Noted (List Model) :=
  let schemas := doc.schemas
  ((modelNames schemas).zip schemas).mapM fun (name, key, s) => model name key s

/-- The operation of a path for a method. -/
def PathItem.operation? (item : PathItem) : Method → Option Operation
  | .get => item.get
  | .post => item.post
  | .put => item.put
  | .patch => item.patch
  | .delete => item.delete

/-- An operation with its path and method. -/
structure Endpoint where
  /-- The path. -/
  path : String
  /-- The operations of the path. -/
  item : PathItem
  /-- The method. -/
  method : Method
  /-- The operation. -/
  operation : Operation

/-- The operations of a path, in the order of the methods. -/
def endpointsOf (path : String) (item : PathItem) : List Endpoint :=
  Method.all.filterMap fun method =>
    (item.operation? method).map fun operation => { path, item, method, operation }

/-- **The operations that a document declares**, in ascending order of their paths. -/
def endpoints (doc : Document) : List Endpoint :=
  (OrderedMap.sorted doc.paths).flatMap fun (path, item) => endpointsOf path item

namespace Endpoint

/-- The place of the path. -/
def pathPointer (e : Endpoint) : String :=
  Pointer.child "#/paths" e.path

/-- The place of the operation. -/
def pointer (e : Endpoint) : String :=
  Pointer.child e.pathPointer e.method.name

/-- The name that the operation asks for. -/
def candidate (e : Endpoint) : String :=
  Naming.camelCase (e.operation.id.getD (Naming.operationId e.method.name e.path))

end Endpoint

/-- The shape of a schema that should be there, or any value with a warning. -/
def shapeOrWarn (code message pointer : String) (tokens : List String) :
    Option Schema → Noted Shape
  | some s => s.shape (some (Pointer.descend pointer tokens))
  | none => do
    Noted.warn code message (some pointer)
    return .unknown

/-- The parameter that is declared at a place, unless it travels in an unknown way. -/
def parameter? (pointer : String) (p : Parameter) : Noted (Option ClientGen.Parameter) :=
  match Location.ofName? p.location with
  | none => do
    Noted.warn "parameter.unsupported"
      ("Unsupported parameter location \"" ++ p.location ++ "\" for \"" ++ p.name ++ "\".")
      (some pointer)
    return none
  | some location => do
    let shape ← shapeOrWarn "parameter.schema.missing"
      ("Parameter \"" ++ p.name ++ "\" has no schema; using unknown.") pointer ["schema"] p.schema
    return some
      { name := p.name, location, required := p.required.getD (location == .path), shape
        doc := p.description }

/-- The parameters that are declared below a place. -/
def parameters (owner : String) (ps : List Parameter) : Noted (List ClientGen.Parameter) := do
  let list := Pointer.child owner "parameters"
  let found ← ps.zipIdx.mapM fun (p, position) =>
    parameter? (Pointer.child list (Text.decimal position)) p
  return found.filterMap id

/-- The representation that clients speak, with its media type. -/
def preferredMedia? (content : OrderedMap Media) : Option (String × Media) :=
  (MediaType.preferred? (content.map (·.1))).bind fun mediaType =>
    (content.lookup mediaType).map fun media => (mediaType, media)

/-- The body of a request, if any of its representations can be used. -/
def body? (owner : String) (b : RequestBody) : Noted (Option Body) :=
  let pointer := Pointer.child owner "requestBody"
  match preferredMedia? b.content with
  | none => do
    Noted.warn "requestBody.content.unsupported"
      "Request body does not include a supported content type." (some pointer)
    return none
  | some (mediaType, media) => do
    let shape ← shapeOrWarn "requestBody.schema.missing"
      "Request body schema missing; using unknown." pointer ["content", mediaType, "schema"]
      media.schema
    return some
      { shape, mediaType, kind := MediaType.kind mediaType, required := b.required
        doc := b.description }

/-- A response that is declared at a place. -/
def response (pointer status : String) (r : Response) : Noted ClientGen.Response := do
  let blank : ClientGen.Response :=
    { status, shape := none, isDefault := status == "default", mediaType := none, kind := .unknown
      doc := r.description }
  match preferredMedia? r.content with
  | none => return blank
  | some (mediaType, media) =>
    let shape ← shapeOrWarn "response.schema.missing"
      ("Response " ++ status ++ " has no schema; using unknown.") pointer
      ["content", mediaType, "schema"] media.schema
    return { blank with
      shape := some shape, mediaType := some mediaType, kind := MediaType.kind mediaType }

/-- The responses that are declared below a place. -/
def responses (owner : String) (rs : OrderedMap Response) : Noted (List ClientGen.Response) :=
  let list := Pointer.child owner "responses"
  rs.mapM fun (status, r) => response (Pointer.child list status) status r

/-- The operation of an endpoint. -/
def operation (defaultTag id : String) (e : Endpoint) : Noted ClientGen.Operation := do
  let shared ← parameters e.pathPointer e.item.parameters
  let own ← parameters e.pointer e.operation.parameters
  let body ← match e.operation.body with
    | some b => body? e.pointer b
    | none => pure none
  let responses ← responses e.pointer e.operation.responses
  return {
    id
    method := e.method
    path := e.path
    tags := [e.operation.tags.head?.getD defaultTag]
    parameters := shared ++ own
    body
    responses
    doc := e.operation.description.or e.operation.summary
    pointer := some e.pointer }

/-- The identifiers of operations, all different. -/
def operationNames (endpoints : List Endpoint) : List String :=
  (Naming.uniqueAll [] (endpoints.map (·.candidate))).1

/-- The identifiers that are taken once every operation has one. -/
def takenOperationNames (endpoints : List Endpoint) : List String :=
  (Naming.uniqueAll [] (endpoints.map (·.candidate))).2

/-- **The operations of a document.** -/
def operations (doc : Document) (defaultTag : String) : Noted (List ClientGen.Operation) :=
  let endpoints := doc.endpoints
  ((operationNames endpoints).zip endpoints).mapM fun (id, e) => operation defaultTag id e

/-- **The description of the API of a document.** Operations without a tag get the default tag. -/
def describe (doc : Document) (defaultTag : String) : Noted Description := do
  let models ← doc.models
  let operations ← doc.operations defaultTag
  let api : Api :=
    { title := (doc.info.bind (·.title)).getD "API"
      version := (doc.info.bind (·.version)).getD "0.0.0"
      models, operations }
  return {
    api := api.sorted
    modelNames := takenModelNames doc.schemas
    operationNames := takenOperationNames doc.endpoints }

end Document

end ClientGen
