import ClientGen.Api.Basic
import ClientGen.Json.Printer

/-!
# The text of a description

A description is written as a JSON document over several lines. The members of every part have a
fixed order, so equal descriptions have the same text.

* `Shape.toJson` — a shape: an object whose member `kind` comes first.
* `Api.toJson`, `Api.print` — a whole description, and its text.

Descriptions and media types that are not there are left out.
-/

namespace ClientGen

/-- The version of the format. -/
def Api.formatVersion : Nat :=
  1

/-- A member that is left out if there is nothing to write. -/
def memberOf {α : Type} (name : String) (toJson : α → Json) : Option α → List (String × Json)
  | some value => [(name, toJson value)]
  | none => []

namespace Shape

/-- The member for what is said about further members. -/
def extraMember : Extra Json → List (String × Json)
  | .unstated => []
  | .forbidden => [("additionalProperties", .bool false)]
  | .allowed values => [("additionalProperties", values)]

/-- An object that starts with its kind. -/
def tagged (kind : String) (members : List (String × Json)) : Json :=
  .object (("kind", .string kind) :: members)

/-- The algebra that writes shapes. -/
def writing : Algebra Json where
  primitive type := tagged "primitive" [("type", .string type.name)]
  literal value := tagged "literal" [("value", value)]
  enumeration values := tagged "enum" [("values", .array values)]
  array items := tagged "array" [("items", items)]
  object properties required extra :=
    tagged "object" ([("properties", .object properties), ("required", .ofStrings required)] ++
      extraMember extra)
  union variants := tagged "union" [("variants", .array variants)]
  intersection parts := tagged "intersection" [("parts", .array parts)]
  ref name := tagged "ref" [("name", .string name)]
  nullable inner := tagged "nullable" [("inner", inner)]
  binary := tagged "binary" []
  unknown := tagged "unknown" []

/-- **A shape as a JSON value.** -/
def toJson (shape : Shape) : Json :=
  shape.fold writing

end Shape

/-- A parameter as a JSON value. -/
def Parameter.toJson (p : Parameter) : Json :=
  .object <|
    [("name", .string p.name), ("in", .string p.location.name), ("required", .bool p.required),
      ("schema", p.shape.toJson)] ++
    memberOf "doc" .string p.doc

/-- A body as a JSON value. -/
def Body.toJson (b : Body) : Json :=
  .object <|
    [("schema", b.shape.toJson), ("contentType", .string b.mediaType),
      ("kind", .string b.kind.name), ("required", .bool b.required)] ++
    memberOf "doc" .string b.doc

/-- A response as a JSON value. -/
def Response.toJson (r : Response) : Json :=
  .object <|
    [("status", .string r.status)] ++ memberOf "schema" Shape.toJson r.shape ++
    [("isDefault", .bool r.isDefault)] ++ memberOf "contentType" .string r.mediaType ++
    [("kind", .string r.kind.name)] ++ memberOf "doc" .string r.doc

/-- An operation as a JSON value. -/
def Operation.toJson (op : Operation) : Json :=
  .object <|
    [("operationId", .string op.id), ("method", .string op.method.name), ("path", .string op.path),
      ("tags", .ofStrings op.tags), ("params", .array (op.parameters.map Parameter.toJson))] ++
    memberOf "requestBody" Body.toJson op.body ++
    [("responses", .array (op.responses.map Response.toJson))] ++
    memberOf "doc" .string op.doc ++ memberOf "sourcePointer" .string op.pointer

/-- A model as a JSON value. -/
def Model.toJson (m : Model) : Json :=
  .object <|
    [("name", .string m.name), ("schema", m.shape.toJson)] ++
    memberOf "doc" .string m.doc ++ memberOf "sourcePointer" .string m.pointer

namespace Api

/-- **A description as a JSON value.** -/
def toJson (api : Api) : Json :=
  .object
    [("version", .ofNat formatVersion),
      ("info", .object [("title", .string api.title), ("version", .string api.version)]),
      ("models", .array (api.models.map Model.toJson)),
      ("operations", .array (api.operations.map Operation.toJson))]

/-- **The text of a description.** -/
def print (api : Api) : String :=
  api.toJson.pretty

end Api

end ClientGen
