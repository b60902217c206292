import ClientGen.Api.Shape
import ClientGen.MediaType

/-!
# The description of an API

Everything that a client needs to know about an API, independent of the document it was read from
and of the language the client is written in.

* `Api` — title, version, models and operations.
* `Operation`, `Parameter`, `Body`, `Response` — one operation and its parts.
* `Operation.parametersAt` — the parameters of one place, later ones instead of earlier ones of the
  same name.
* `Operation.success?` — the response of a successful call.
* `Api.byTag` — the operations of each tag.
* `Api.sorted` — models by name, operations by tag and identifier, parameters by place and name,
  responses by status, and every shape in its canonical order.
* `Api.rename` — other names for models, wherever they are mentioned.

**Success.** The first response whose status is a number from 200 to 299 counts as success. A status
is a number if it consists of decimal digits, after a plus sign or none, and fits into sixteen bits.

**Stability.** Parts that the canonical order does not tell apart keep the order they had.
-/

namespace ClientGen

/-- The methods of operations. -/
inductive Method where
  /-- GET -/
  | get
  /-- POST -/
  | post
  /-- PUT -/
  | put
  /-- PATCH -/
  | patch
  /-- DELETE -/
  | delete
  deriving DecidableEq, Repr, Inhabited

/-- The name of a method in documents. -/
def Method.name : Method → String
  | .get => "get"
  | .post => "post"
  | .put => "put"
  | .patch => "patch"
  | .delete => "delete"

/-- The name of a method in requests. -/
def Method.wireName : Method → String
  | .get => "GET"
  | .post => "POST"
  | .put => "PUT"
  | .patch => "PATCH"
  | .delete => "DELETE"

/-- All methods, in the order in which the operations of a path are taken. -/
def Method.all : List Method :=
  [.get, .post, .put, .patch, .delete]

/-- The places of parameters. -/
inductive Location where
  /-- A segment of the path. -/
  | path
  /-- The query string. -/
  | query
  /-- A header. -/
  | header
  /-- A cookie. -/
  | cookie
  deriving DecidableEq, Repr, Inhabited

/-- The name of a place. -/
def Location.name : Location → String
  | .path => "path"
  | .query => "query"
  | .header => "header"
  | .cookie => "cookie"

/-- All places. -/
def Location.all : List Location :=
  [.path, .query, .header, .cookie]

/-- The place with a name. -/
def Location.ofName? (name : String) : Option Location :=
  Location.all.find? (·.name == name)

/-- **A parameter of an operation.** -/
structure Parameter where
  /-- The name in requests. -/
  name : String
  /-- The place. -/
  location : Location
  /-- Whether callers have to give it. -/
  required : Bool
  /-- The shape of its value. -/
  shape : Shape
  /-- The description. -/
  doc : Option String
  deriving BEq, Inhabited

/-- **The body of a request.** -/
structure Body where
  /-- The shape of the body. -/
  shape : Shape
  /-- The media type. -/
  mediaType : String
  /-- The kind of the media type. -/
  kind : ContentKind
  /-- Whether callers have to give it. -/
  required : Bool
  /-- The description. -/
  doc : Option String
  deriving BEq, Inhabited

/-- **A response of an operation.** -/
structure Response where
  /-- The status: a number, a class such as `4XX`, or `default`. -/
  status : String
  /-- The shape of the body, if there is a body. -/
  shape : Option Shape
  /-- Whether this is the response for all other statuses. -/
  isDefault : Bool
  /-- The media type. -/
  mediaType : Option String
  /-- The kind of the media type. -/
  kind : ContentKind
  /-- The description. -/
  doc : Option String
  deriving BEq, Inhabited

/-- **An operation.** -/
structure Operation where
  /-- The identifier. -/
  id : String
  /-- The method. -/
  method : Method
  /-- The path template. -/
  path : String
  /-- The tags, of which the first one counts. -/
  tags : List String
  /-- The parameters. -/
  parameters : List Parameter
  /-- The body of the request. -/
  body : Option Body
  /-- The responses. -/
  responses : List Response
  /-- The description. -/
  doc : Option String
  /-- The place in the document. -/
  pointer : Option String
  deriving BEq, Inhabited

/-- **A model**: a shape with a name. -/
structure Model where
  /-- The name. -/
  name : String
  /-- The shape. -/
  shape : Shape
  /-- The description. -/
  doc : Option String
  /-- The place in the document. -/
  pointer : Option String
  deriving BEq, Inhabited

/-- **The description of an API.** -/
structure Api where
  /-- The title. -/
  title : String
  /-- The version. -/
  version : String
  /-- The models. -/
  models : List Model
  /-- The operations. -/
  operations : List Operation
  deriving BEq, Inhabited

namespace Response

/-- The digits of a status, after a plus sign or none. -/
def digits (status : List Char) : List Char :=
  match status with
  | '+' :: ds => ds
  | ds => ds

/-- **The status of a response as a number.** -/
def code? (r : Response) : Option Nat :=
  let ds := digits r.status.toList
  if ds.isEmpty || !ds.all Text.isAsciiDigit then none
  else
    let code := ds.foldl (fun n c => 10 * n + (c.toNat - 48)) 0
    if code < twoTo 16 then some code else none

/-- Whether a response answers a successful call. -/
def isSuccess (r : Response) : Bool :=
  match r.code? with
  | some code => 200 ≤ code && code < 300
  | none => false

end Response

namespace Operation

/-- The tag of an operation. -/
def tag (op : Operation) : String :=
  op.tags.head?.getD "default"

/-- The list with a parameter: in the place of the first one of the same name, otherwise at the
end. -/
def put (p : Parameter) : List Parameter → List Parameter
  | [] => [p]
  | q :: qs => if q.name = p.name then p :: qs else q :: put p qs

/-- **The parameters of one place**, one for each name. -/
def parametersAt (op : Operation) (location : Location) : List Parameter :=
  (op.parameters.filter (·.location == location)).foldl (fun ps p => put p ps) []

/-- **The response of a successful call.** -/
def success? (op : Operation) : Option Response :=
  op.responses.find? (·.isSuccess)

/-- The shape of what a successful call returns. -/
def successShape (op : Operation) : Shape :=
  (op.success?.bind (·.shape)).getD .unknown

/-- How the body of a successful response is decoded, in the words of generated clients. -/
def decoding (op : Operation) : String :=
  match op.success? with
  | none => "none"
  | some r =>
    if r.shape.isNone then "none"
    else match r.kind with
      | .json => "json"
      | .binary => "binary"
      | .form => "text"
      | .text => "text"
      | .unknown => "text"

/-- The names of the declared path parameters. -/
def pathNames (op : Operation) : List String :=
  (op.parameters.filter (·.location == .path)).map (·.name)

/-- The shapes of an operation. -/
def shapes (op : Operation) : List Shape :=
  op.parameters.map (·.shape) ++ op.body.toList.map (·.shape) ++
    op.responses.filterMap (·.shape)

/-- **The names of the models that an operation refers to**, in ascending order, each once. -/
def references (op : Operation) : List String :=
  Naming.ascending (op.shapes.flatMap (·.references))

end Operation

/-- **The operations of each tag**, tags in ascending order, operations in their own order. -/
def Api.byTag (api : Api) : List (String × List Operation) :=
  (Naming.ascending (api.operations.map (·.tag))).map fun tag =>
    (tag, api.operations.filter (·.tag == tag))

/-! ## Canonical order and other names -/

/-- Order by a first text and, where it is the same, by a second one. -/
def textsLe (a b : String × String) : Bool :=
  if a.1 = b.1 then decide (a.2 ≤ b.2) else decide (a.1 ≤ b.1)

/-- Every shape of an operation replaced by its image. -/
def Operation.mapShapes (f : Shape → Shape) (op : Operation) : Operation :=
  { op with
    parameters := op.parameters.map fun p => { p with shape := f p.shape }
    body := op.body.map fun b => { b with shape := f b.shape }
    responses := op.responses.map fun r => { r with shape := r.shape.map f } }

/-- The parts of an operation in canonical order. -/
def Operation.sorted (op : Operation) : Operation :=
  let op := op.mapShapes Shape.sorted
  { op with
    parameters := op.parameters.mergeSort fun p q =>
      textsLe (p.location.name, p.name) (q.location.name, q.name)
    responses := op.responses.mergeSort fun r s => decide (r.status ≤ s.status) }

namespace Api

/-- **The canonical order of a description.** -/
def sorted (api : Api) : Api :=
  { api with
    models := (api.models.map fun m => { m with shape := m.shape.sorted }).mergeSort
      fun m n => decide (m.name ≤ n.name)
    operations := (api.operations.map Operation.sorted).mergeSort
      fun a b => textsLe (a.tag, a.id) (b.tag, b.id) }

/-- **Other names for models**, each old name replaced once. -/
def rename (newNames : List (String × String)) (api : Api) : Api :=
  { api with
    models := api.models.map fun m =>
      { m with name := Shape.renamed newNames m.name, shape := m.shape.rename newNames }
    operations := api.operations.map (·.mapShapes (Shape.rename newNames)) }

end Api

end ClientGen
