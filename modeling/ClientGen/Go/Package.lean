import ClientGen.Api.Basic
import ClientGen.Go.Operations
import ClientGen.Go.Requests
import ClientGen.Sdk.File

/-!
# Go clients

* `collisions` — new names for models that are called like something in the request code.
* `files` — the files of a client.
-/

namespace ClientGen.Go

/-- **New names for models** that are called like something in the request code. -/
def collisions (models : List Model) : List (String × String) :=
  let names := models.map (·.name)
  let colliding := names.filter clientNames.contains
  let free := (Naming.uniqueAll (clientNames ++ names) (colliding.map (· ++ "Model"))).1
  OrderedMap.ofEntries (colliding.zip free)

/-- The file that describes the package. -/
def packageFile (api : Api) : String :=
  header ++ "// Package gen is a client for the " ++ Text.squeeze api.title ++ " API, version " ++
    Text.squeeze api.version ++ ".\npackage gen\n"

/-- **The files of a client.** -/
def files (api : Api) : List SourceFile :=
  let api := api.rename (collisions api.models)
  [⟨"doc.go", packageFile api⟩,
    ⟨"models.go", modelsFile api.models (clientNames ++ api.models.map (·.name))⟩,
    ⟨"client.go", header ++ clientFile⟩,
    ⟨"operations.go", operationsFile api.operations⟩]

end ClientGen.Go
