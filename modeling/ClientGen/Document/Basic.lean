import ClientGen.Document.Schema
import ClientGen.Files.Path

/-!
# Documents

The parts of an API document that matter. Everything is optional; what is not there is `none`, an
empty list or an empty text.

* `Document` — title and version, paths and schemas.
* `Document.PathItem`, `Document.Operation` and the parts of an operation.
* `Document.Notation` — JSON or YAML, read off the name of a file.
-/

namespace ClientGen

namespace Document

/-- Title and version. -/
structure Info where
  /-- The title. -/
  title : Option String := none
  /-- The version. -/
  version : Option String := none
  deriving Inhabited

/-- A representation of a body in one media type. -/
structure Media where
  /-- The schema of the body. -/
  schema : Option Schema := none
  deriving Inhabited

/-- A parameter. -/
structure Parameter where
  /-- The name. -/
  name : String := ""
  /-- The place, as it is written. -/
  location : String := ""
  /-- Whether callers have to give it. -/
  required : Option Bool := none
  /-- The schema of its value. -/
  schema : Option Schema := none
  /-- The description. -/
  description : Option String := none
  deriving Inhabited

/-- The body of a request. -/
structure RequestBody where
  /-- The description. -/
  description : Option String := none
  /-- Whether callers have to give it. -/
  required : Bool := false
  /-- Its representations by media type. -/
  content : OrderedMap Media := []
  deriving Inhabited

/-- A response. -/
structure Response where
  /-- The description. -/
  description : Option String := none
  /-- Its representations by media type. -/
  content : OrderedMap Media := []
  deriving Inhabited

/-- **An operation of a path.** -/
structure Operation where
  /-- The identifier. -/
  id : Option String := none
  /-- What it does, in a line. -/
  summary : Option String := none
  /-- What it does. -/
  description : Option String := none
  /-- The tags. -/
  tags : List String := []
  /-- The parameters. -/
  parameters : List Parameter := []
  /-- The body of the request. -/
  body : Option RequestBody := none
  /-- The responses by status. -/
  responses : OrderedMap Response := []
  deriving Inhabited

/-- **The operations of a path.** -/
structure PathItem where
  /-- The operation for GET. -/
  get : Option Operation := none
  /-- The operation for POST. -/
  post : Option Operation := none
  /-- The operation for PUT. -/
  put : Option Operation := none
  /-- The operation for PATCH. -/
  patch : Option Operation := none
  /-- The operation for DELETE. -/
  delete : Option Operation := none
  /-- The parameters of all operations. -/
  parameters : List Parameter := []
  deriving Inhabited

/-- Parts that several operations share. -/
structure Components where
  /-- The schemas by name. -/
  schemas : OrderedMap Schema := []
  deriving Inhabited

/-- The notations of documents. -/
inductive Notation where
  /-- JSON -/
  | json
  /-- YAML -/
  | yaml
  deriving DecidableEq, Repr, Inhabited

/-- **The notation of a file**: YAML if its name says so, otherwise JSON. -/
def Notation.ofPath (path : String) : Notation :=
  match (Path.extension? path).map Text.lowerAscii with
  | some "yaml" => .yaml
  | some "yml" => .yaml
  | _ => .json

end Document

/-- **A document.** -/
structure Document where
  /-- Title and version. -/
  info : Option Document.Info := none
  /-- The paths. -/
  paths : OrderedMap Document.PathItem := []
  /-- Shared parts. -/
  components : Option Document.Components := none
  deriving Inhabited

end ClientGen
