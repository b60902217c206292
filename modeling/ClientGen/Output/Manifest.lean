import ClientGen.Files.Store
import ClientGen.Json.Cursor
import ClientGen.Json.Printer

/-!
# Manifests

Beside the files of a client stands a manifest: the list of these files, so that the next run knows
what to remove.

* `Manifest` — the listed paths.
* `Manifest.text` — the text of a manifest.
* `Manifest.parse?` — the manifest of a text, if it is one.
* `Manifest.read?` — the manifest in a directory, if a readable one is there.
-/

namespace ClientGen

/-- **A manifest**: paths below its directory. -/
structure Manifest where
  /-- The listed paths. -/
  files : List String := []
  deriving DecidableEq, Repr, Inhabited

namespace Manifest

/-- The name of its file. -/
def fileName : String :=
  ".gen-manifest.json"

/-- **The text of a manifest.** -/
def text (manifest : Manifest) : String :=
  (Json.object [("files", .ofStrings manifest.files)]).pretty

/-- A manifest at a place of a text. The list may be left out. -/
def read : Json.Cursor → Except Json.Failure Manifest :=
  Json.Cursor.record
    { name := "Manifest"
      blank := {}
      fields :=
        [.withDefault "files" (Json.Cursor.list Json.Cursor.text)
          fun files manifest => { manifest with files }] }

/-- **The manifest of a text**, if it is one. -/
def parse? (text : String) : Option Manifest :=
  (Json.Cursor.ofText read text).toOption

/-- **The manifest in a directory**, if a readable one is there. -/
def read? {m : Type → Type} [Monad m] [FileReader m] (dir : String) : m (Option Manifest) := do
  match ← FileReader.readText (Path.join dir fileName) with
  | .ok text => return parse? text
  | .error _ => return none

end Manifest

end ClientGen
