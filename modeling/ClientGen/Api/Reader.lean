import ClientGen.Api.Printer
import ClientGen.Api.ShapeReader

/-!
# Reading descriptions

* `Api.read?` — the description of a text, or why there is none.
* `ApiError` — a text that cannot be read, or one of another version of the format.

Descriptions and media types may be left out, and so may the statement that a body is required.
-/

namespace ClientGen

open Json (Cursor Failure)

/-- **Why a text is no description.** -/
inductive ApiError where
  /-- The text cannot be read. -/
  | unreadable (failure : Failure)
  /-- The text has another version of the format. -/
  | unsupportedVersion (version : Nat)
  deriving DecidableEq, Repr

namespace Api

/-- Names as choices. -/
def choicesOf {α : Type} (name : α → String) (all : List α) : List (String × α) :=
  all.map fun a => (name a, a)

/-- The kind of a media type. -/
def readContentKind : Cursor → Except Failure ContentKind :=
  Cursor.choice (choicesOf ContentKind.name ContentKind.all)

/-- A parameter. -/
def readParameter : Cursor → Except Failure Parameter :=
  Cursor.record
    { name := "IrParam"
      blank := default
      fields :=
        [.required "name" Cursor.text fun x r => { r with name := x },
          .required "in" (Cursor.choice (choicesOf Location.name Location.all))
            fun x r => { r with location := x },
          .required "required" Cursor.flag fun x r => { r with required := x },
          .required "schema" Shape.read fun x r => { r with shape := x },
          .optionalAnywhere "doc" Cursor.text fun x r => { r with doc := x }] }

/-- The body of a request. -/
def readBody : Cursor → Except Failure Body :=
  Cursor.record
    { name := "IrRequestBody"
      blank := default
      fields :=
        [.required "schema" Shape.read fun x r => { r with shape := x },
          .required "contentType" Cursor.text fun x r => { r with mediaType := x },
          .required "kind" readContentKind fun x r => { r with kind := x },
          .withDefault "required" Cursor.flag fun x r => { r with required := x },
          .optionalAnywhere "doc" Cursor.text fun x r => { r with doc := x }] }

/-- A response. -/
def readResponse : Cursor → Except Failure Response :=
  Cursor.record
    { name := "IrResponse"
      blank := default
      fields :=
        [.required "status" Cursor.text fun x r => { r with status := x },
          .optionalAnywhere "schema" Shape.read fun x r => { r with shape := x },
          .required "isDefault" Cursor.flag fun x r => { r with isDefault := x },
          .optionalAnywhere "contentType" Cursor.text fun x r => { r with mediaType := x },
          .required "kind" readContentKind fun x r => { r with kind := x },
          .optionalAnywhere "doc" Cursor.text fun x r => { r with doc := x }] }

/-- An operation. -/
def readOperation : Cursor → Except Failure Operation :=
  Cursor.record
    { name := "IrOperation"
      blank := default
      fields :=
        [.required "operationId" Cursor.text fun x r => { r with id := x },
          .required "method" (Cursor.choice (choicesOf Method.name Method.all))
            fun x r => { r with method := x },
          .required "path" Cursor.text fun x r => { r with path := x },
          .required "tags" (Cursor.list Cursor.text) fun x r => { r with tags := x },
          .required "params" (Cursor.list readParameter) fun x r => { r with parameters := x },
          .optionalAnywhere "requestBody" readBody fun x r => { r with body := x },
          .required "responses" (Cursor.list readResponse) fun x r => { r with responses := x },
          .optionalAnywhere "doc" Cursor.text fun x r => { r with doc := x },
          .optionalAnywhere "sourcePointer" Cursor.text fun x r => { r with pointer := x }] }

/-- A model. -/
def readModel : Cursor → Except Failure Model :=
  Cursor.record
    { name := "IrModel"
      blank := default
      fields :=
        [.required "name" Cursor.text fun x r => { r with name := x },
          .required "schema" Shape.read fun x r => { r with shape := x },
          .optionalAnywhere "doc" Cursor.text fun x r => { r with doc := x },
          .optionalAnywhere "sourcePointer" Cursor.text fun x r => { r with pointer := x }] }

/-- Title and version. -/
def readInfo : Cursor → Except Failure (String × String) :=
  Cursor.record
    { name := "IrInfo"
      blank := ("", "")
      fields :=
        [.required "title" Cursor.text fun x r => (x, r.2),
          .required "version" Cursor.text fun x r => (r.1, x)] }

/-- A description with the version of its format. -/
def readVersioned : Cursor → Except Failure (Nat × Api) :=
  Cursor.record
    { name := "Ir"
      blank := (0, default)
      fields :=
        [.required "version" Cursor.natural fun x r => (x, r.2),
          .required "info" readInfo fun x r => (r.1, { r.2 with title := x.1, version := x.2 }),
          .required "models" (Cursor.list readModel)
            fun x r => (r.1, { r.2 with models := x }),
          .required "operations" (Cursor.list readOperation)
            fun x r => (r.1, { r.2 with operations := x })] }

/-- **The description of a text.** -/
def read? (text : String) : Except ApiError Api :=
  match Cursor.ofText readVersioned text with
  | .error failure => .error (.unreadable failure)
  | .ok (version, api) =>
    if version = formatVersion then .ok api else .error (.unsupportedVersion version)

end Api

end ClientGen
