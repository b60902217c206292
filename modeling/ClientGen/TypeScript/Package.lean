import ClientGen.Sdk.File
import ClientGen.TypeScript.Client
import ClientGen.TypeScript.Requests

/-!
# TypeScript clients

* `modelFile` — the file of a model.
* `clientFiles` — the files of the tags.
* `files` — the files of a client.

Every folder has an index that exports all of its files. The operations of an only tag stand in a
file called `default`.
-/

namespace ClientGen.TypeScript

/-- A file that exports everything that other files export. -/
def index (stems : List String) : String :=
  if stems.isEmpty then "export \x7b\x7d;\n"
  else String.join (stems.map fun stem => "export * from \"./" ++ stem ++ ".js\";\n")

/-- **The file of a model.** -/
def modelFile (m : Model) : SourceFile :=
  let imports := (m.shape.references.filter (· != m.name)).map fun name =>
    Import.mk [name] ("./" ++ name ++ ".js") true
  let module := { imports, types := [definition m], functions := [] : Module }
  ⟨"models/" ++ m.name ++ ".ts", module.text⟩

/-- The stems of the files of tags, all different. -/
def tagStems (tags : List String) : List String :=
  if tags.length = 1 then ["default"] else (Naming.uniqueAll [] (tags.map fileName)).1

/-- **The files of the tags**, with their stems. -/
def clientFiles (api : Api) : List String × List SourceFile :=
  let groups := api.byTag
  let stems := tagStems (groups.map (·.1))
  (stems, (stems.zip groups).map fun (stem, _, operations) =>
    ⟨"client/" ++ stem ++ ".ts", (clientModule operations).text⟩)

/-- The index of the whole client. -/
def rootIndex : String :=
  "export * from \"./runtime.js\";\nexport * as models from \"./models/index.js\";\n" ++
    "export * as client from \"./client/index.js\";\n"

/-- **The files of a client.** -/
def files (api : Api) : List SourceFile :=
  let (stems, clients) := clientFiles api
  api.models.map modelFile ++ [⟨"models/index.ts", index (api.models.map (·.name))⟩] ++ clients ++
    [⟨"client/index.ts", index stems⟩, ⟨"runtime.ts", requestFile⟩, ⟨"index.ts", rootIndex⟩]

end ClientGen.TypeScript
