import ClientGen.Document.Reading
import ClientGen.Files.Store
import ClientGen.Json.Cursor
import ClientGen.Yaml.Cursor

/-!
# Loading documents

* `Document.parse` — the document of a text in one of the notations.
* `Document.load` — the document of a file, whose name says which notation it is in.
* `LoadError` — why there is none.
-/

namespace ClientGen

namespace Document

/-- **Why there is no document.** -/
inductive LoadError where
  /-- The file cannot be read. -/
  | unreadable (path : String) (fault : FileFault)
  /-- The text is no document in JSON. -/
  | json (failure : Json.Failure)
  /-- The text is no document in YAML. -/
  | yaml
  deriving DecidableEq, Repr, Inhabited

/-- The wording of an error. -/
def LoadError.message : LoadError → String
  | .unreadable path fault => "failed to read " ++ path ++ ": " ++ fault.message
  | .json failure => "failed to parse OpenAPI JSON: " ++ failure.message
  | .yaml => "failed to parse OpenAPI YAML: malformed text or wrong shape"

/-- **The document of a text.** -/
def parse (format : Notation) (text : String) : Except LoadError Document :=
  match format with
  | .json => (Json.Cursor.ofText Document.read text).mapError .json
  | .yaml =>
    match Yaml.Cursor.ofText? Document.read text with
    | some doc => .ok doc
    | none => .error .yaml

/-- **The document of a file.** -/
def load {m : Type → Type} [Monad m] [FileReader m] (path : String) :
    m (Except LoadError Document) := do
  match ← FileReader.readText path with
  | .ok text => return parse (Notation.ofPath path) text
  | .error fault => return .error (.unreadable path fault)

end Document

end ClientGen
