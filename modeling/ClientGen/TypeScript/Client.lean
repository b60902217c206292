import ClientGen.PathTemplate
import ClientGen.TypeScript.Printer
import ClientGen.TypeScript.Shapes

/-!
# The operations of a TypeScript client

Every tag has a module with one function for each of its operations, and one type for the parameters
of each function.

* `Signature` — the groups of parameters that an operation has.
* `Signature.definition` — the type of the parameters.
* `pathExpression` — the expression that makes the path of a request.
* `function` — the function of an operation.
* `clientModule` — the module of a tag.

**Names.** The models that a module refers to keep their names. The request class and the functions
and types of the module are made different from them, and from each other, by numbers.
-/

namespace ClientGen.TypeScript

open PathTemplate

/-- A group of parameters. -/
structure Group where
  /-- The name of the group. -/
  name : String
  /-- Its parameters. -/
  parameters : List Parameter

/-- Whether callers have to give a group. -/
def Group.required (g : Group) : Bool :=
  g.parameters.any (·.required)

/-- The places of parameters that form groups, with the names of the groups. -/
def groupPlaces : List (String × Location) :=
  [("path", .path), ("query", .query), ("headers", .header)]

/-- **The groups of parameters that an operation has**, and its body. -/
structure Signature where
  /-- The groups that are not empty. -/
  groups : List Group
  /-- The body. -/
  body : Option Body

namespace Signature

/-- The signature of an operation. -/
def ofOperation (op : Operation) : Signature :=
  let groups := groupPlaces.map fun (name, location) => Group.mk name (op.parametersAt location)
  { groups := groups.filter (!·.parameters.isEmpty), body := op.body }

/-- The members of the type of the parameters. -/
def names (s : Signature) : List String :=
  s.groups.map (·.name) ++ s.body.toList.map fun _ => "body"

/-- Whether callers have to give any parameter. -/
def required (s : Signature) : Bool :=
  s.groups.any (·.required) || s.body.toList.any (·.required)

/-- Whether callers have to give some parameter of a group. -/
def requires (s : Signature) (group : String) : Bool :=
  s.groups.any fun g => g.name == group && g.required

/-- The property of a group. -/
def groupProperty (g : Group) : Property TypeExpr :=
  let properties := g.parameters.map fun p =>
    { name := p.name, type := typeOf p.shape, optional := !p.required, doc := none }
  { name := g.name, type := .object properties none, optional := !g.required, doc := none }

/-- The property of the body. -/
def bodyProperty (b : Body) : Property TypeExpr :=
  { name := "body", type := typeOf b.shape, optional := !b.required, doc := none }

/-- **The type of the parameters.** -/
def definition (s : Signature) (name : String) : Definition :=
  { name, doc := none
    body :=
      if s.names.isEmpty then .alias (.stringRecord (.ref "never"))
      else .interface (s.groups.map groupProperty ++ s.body.toList.map bodyProperty) none }

end Signature

/-- The expression for a segment of a path. -/
def pathPart (declared : List String) (present : Bool) : Segment → TemplatePart Expression
  | .literal text => .text text
  | .param name =>
    if declared.contains name then
      .substitution (.raw ("encodeURIComponent(String(" ++ access "path" name present ++ "))"))
    else .text (Segment.param name).text

/-- Whether a segment of a path takes a parameter. -/
def isSpliced (declared : List String) : Segment → Bool
  | .literal _ => false
  | .param name => declared.contains name

/-- **The expression that makes a path.** Segments in braces for which no parameter is declared stay
as they are. -/
def pathExpression (op : Operation) (present : Bool) : Expression :=
  let segments := split op.path
  if segments.any (isSpliced op.pathNames) then
    .template (segments.map (pathPart op.pathNames present))
  else .literal (.string op.path)

/-- The names that the function of an operation refers to. -/
structure FunctionNames where
  /-- The function itself. -/
  function : String
  /-- The type of its parameters. -/
  parameters : String
  /-- The request class. -/
  client : String
  deriving DecidableEq, Repr

/-- The members that describe the body of a request. -/
def bodyMembers (b : Body) : List (String × Option Expression) :=
  [("body", none), ("bodyKind", some (.literal (.string b.kind.name))),
    ("contentType", some (.literal (.string b.mediaType)))]

/-- The description of a request. -/
def request (op : Operation) (s : Signature) : Expression :=
  .object <|
    [("method", some (.literal (.string op.method.wireName))),
      ("path", some (.identifier "resolvedPath"))] ++
    (["query", "headers"].filter s.names.contains).map (fun name => (name, none)) ++
    op.body.toList.flatMap bodyMembers ++
    [("responseKind", some (.literal (.string op.decoding)))]

/-- **The function of an operation.** -/
def function (op : Operation) (names : FunctionNames) : Function :=
  let s := Signature.ofOperation op
  let result := typeOf op.successShape
  let unpack :=
    if s.names.isEmpty then []
    else [Statement.const (inBraces (commaSeparated s.names)) (.identifier "params")]
  let parameters : Argument :=
    { name := if s.names.isEmpty then "_params" else "params"
      type := .ref names.parameters
      fallback := if s.required then none else some (.object []) }
  { name := names.function
    doc := op.doc
    arguments := [{ name := "client", type := .ref names.client, fallback := none }, parameters]
    result := some (.ref ("Promise<" ++ result.text ++ ">"))
    body := unpack ++
      [.const "resolvedPath" (pathExpression op (s.requires "path")),
        .result (.call (.member (.identifier "client") "request") [result] [request op s])]
    isAsync := true
    isExported := true }

/-- The name of the type of the parameters of a function. -/
def parametersName (function : String) : String :=
  String.ofList (Naming.capitalize (function.toList.dropWhile (· == '_'))) ++ "Params"

/-- The types and functions of operations, where some names are taken. -/
def declarations (client : String) (taken : List String) :
    List Operation → List Definition × List Function
  | [] => ([], [])
  | op :: operations =>
    let (name, taken) := Naming.unique taken (identifier op.id)
    let (parameters, taken) := Naming.unique taken (parametersName name)
    let (types, functions) := declarations client taken operations
    ((Signature.ofOperation op).definition parameters :: types,
      function op { function := name, parameters, client } :: functions)

/-- **The module of a tag.** -/
def clientModule (operations : List Operation) : Module :=
  let models := Naming.ascending (operations.flatMap (·.references))
  let (client, taken) :=
    Naming.unique models (if models.contains "Client" then "RuntimeClient" else "Client")
  let clientItem := if client == "Client" then client else "Client as " ++ client
  let modelImports := if models.isEmpty then [] else [Import.mk models "../models/index.js" true]
  let (types, functions) := declarations client taken operations
  { imports := ⟨[clientItem], "../runtime.js", true⟩ :: modelImports, types, functions }

end ClientGen.TypeScript
