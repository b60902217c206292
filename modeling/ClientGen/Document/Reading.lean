import ClientGen.Document.Basic
import ClientGen.Reading

/-!
# Reading documents

How the parts of a document are read from a tree of any kind. Names of members that are not
mentioned here are passed over.

* `Document.read` — a document.
-/

namespace ClientGen.Document

variable {σ : Type} {m : Type → Type} {α : Type} [Monad m] [Readable σ m]

/-- A text. -/
def readText (tree : σ) : m String :=
  Readable.text tree

/-- A truth value. -/
def readFlag (tree : σ) : m Bool :=
  Readable.flag tree

/-- A schema, which is never refused unless its value cannot be read. -/
def readSchema (tree : σ) : m Schema :=
  (fun v => Schema.ofJson v.canonical) <$> Readable.value tree

/-- A part that is read for its faults and then forgotten. -/
def forgotten (name : String) (read : σ → m α) {β : Type} : Field σ m β :=
  .optional name read fun _ r => r

/-- Title and version. -/
def Info.read : σ → m Info :=
  Readable.record
    { name := "Info"
      blank := {}
      fields :=
        [.optional "title" readText fun x r => { r with title := x },
          .optional "version" readText fun x r => { r with version := x }] }

/-- A representation of a body. -/
def Media.read : σ → m Media :=
  Readable.record
    { name := "MediaType"
      blank := {}
      fields := [.optional "schema" readSchema fun x r => { r with schema := x }] }

/-- A parameter. -/
def Parameter.read : σ → m Parameter :=
  Readable.record
    { name := "Parameter"
      blank := {}
      fields :=
        [.withDefault "name" readText fun x r => { r with name := x },
          .withDefault "in" readText fun x r => { r with location := x },
          .optional "required" readFlag fun x r => { r with required := x },
          .optional "schema" readSchema fun x r => { r with schema := x },
          .optional "description" readText fun x r => { r with description := x }] }

/-- The body of a request. -/
def RequestBody.read : σ → m RequestBody :=
  Readable.record
    { name := "RequestBody"
      blank := {}
      fields :=
        [.optional "description" readText fun x r => { r with description := x },
          .withDefault "required" readFlag fun x r => { r with required := x },
          .withDefault "content" (Readable.map Media.read) fun x r => { r with content := x }] }

/-- A response. -/
def Response.read : σ → m Response :=
  Readable.record
    { name := "Response"
      blank := {}
      fields :=
        [.optional "description" readText fun x r => { r with description := x },
          .withDefault "content" (Readable.map Media.read) fun x r => { r with content := x }] }

/-- An operation. -/
def Operation.read : σ → m Operation :=
  Readable.record
    { name := "Operation"
      blank := {}
      fields :=
        [.optional "operationId" readText fun x r => { r with id := x },
          .optional "summary" readText fun x r => { r with summary := x },
          .optional "description" readText fun x r => { r with description := x },
          .withDefault "tags" (Readable.list readText) fun x r => { r with tags := x },
          .withDefault "parameters" (Readable.list Parameter.read)
            fun x r => { r with parameters := x },
          .optional "requestBody" RequestBody.read fun x r => { r with body := x },
          .withDefault "responses" (Readable.map Response.read)
            fun x r => { r with responses := x }] }

/-- The operations of a path. Those for further methods are read and forgotten. -/
def PathItem.read : σ → m PathItem :=
  Readable.record
    { name := "PathItem"
      blank := {}
      fields :=
        [.optional "get" Operation.read fun x r => { r with get := x },
          .optional "post" Operation.read fun x r => { r with post := x },
          .optional "put" Operation.read fun x r => { r with put := x },
          .optional "patch" Operation.read fun x r => { r with patch := x },
          .optional "delete" Operation.read fun x r => { r with delete := x },
          forgotten "head" Operation.read,
          forgotten "options" Operation.read,
          forgotten "trace" Operation.read,
          .withDefault "parameters" (Readable.list Parameter.read)
            fun x r => { r with parameters := x }] }

/-- Shared parts. -/
def Components.read : σ → m Components :=
  Readable.record
    { name := "Components"
      blank := {}
      fields :=
        [.withDefault "schemas" (Readable.map readSchema) fun x r => { r with schemas := x }] }

/-- **A document.** Its version of the format is read and forgotten. -/
def read : σ → m Document :=
  Readable.record
    { name := "OpenApiDocument"
      blank := {}
      fields :=
        [forgotten "openapi" readText,
          .optional "info" Info.read fun x r => { r with info := x },
          .withDefault "paths" (Readable.map PathItem.read) fun x r => { r with paths := x },
          .optional "components" Components.read fun x r => { r with components := x }] }

end ClientGen.Document
