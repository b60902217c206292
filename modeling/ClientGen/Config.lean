import ClientGen.Files.Store
import ClientGen.Sdk.Language
import ClientGen.Toml.Settings

/-!
# Configuration

A project may keep a file of settings: a tag for operations that have none, and directories for
languages and for named clients.

* `Config` — the settings.
* `Config.parse?` — the settings of a text.
* `Config.load` — the settings of a file, or of none.
* `Config.outDir` — where the files of a language go.

**Directories** are relative to the directory of the file. A directory that is given for a single
run counts first, then the name of a client, then the settings for the language.
-/

namespace ClientGen

/-- **The settings of a project.** -/
structure Config where
  /-- The tag of operations that have none. -/
  defaultTag : Option String := none
  /-- The directories of languages, by their names. -/
  out : OrderedMap String := []
  /-- The directories of named clients. -/
  sdk : OrderedMap String := []
  /-- The directory of the file. -/
  base : String := ""
  deriving Repr, DecidableEq

/-- **Why there are no settings.** -/
inductive ConfigError where
  /-- The file cannot be read. -/
  | unreadable (path : String) (fault : FileFault)
  /-- The text holds no settings. -/
  | malformed
  deriving DecidableEq, Repr, Inhabited

namespace Config

/-- The name of the file. -/
def fileName : String :=
  "oapigen.toml"

/-- The wording of an error. -/
def errorMessage : ConfigError → String
  | .unreadable path fault => "Failed to read " ++ path ++ ": " ++ fault.message
  | .malformed => "Failed to parse " ++ fileName ++ ": malformed text or unknown setting"

/-- With one more setting; there are three of them. -/
def set? (config : Config) : String × Toml.Setting → Option Config
  | ("default_tag", .text tag) => some { config with defaultTag := some tag }
  | ("out", .table _ entries) => some { config with out := OrderedMap.sorted entries }
  | ("sdk", .table _ entries) => some { config with sdk := OrderedMap.sorted entries }
  | _ => none

/-- **The settings of a text** from a file in a directory, or nothing if they cannot be read. -/
def parse? (base : String) (text : String) : Option Config := do
  (← Toml.Settings.parse? text).foldlM set? { base }

/-- **The settings of a file.** If no file is given, there may be one with the usual name, and if
there is none there are no settings. -/
def load {m : Type → Type} [Monad m] [FileReader m] (path : Option String) :
    m (Except ConfigError Config) := do
  let path ←
    match path with
    | some path => pure (some path)
    | none => pure (if ← FileReader.isFile fileName then some fileName else none)
  match path with
  | none => return .ok {}
  | some path =>
    match ← FileReader.readText path with
    | .error fault => return .error (.unreadable path fault)
    | .ok text =>
      match parse? ((Path.parent? path).getD "") text with
      | some config => return .ok config
      | none => return .error .malformed

/-- The directory of a language: the first one whose name means that language. -/
def languageDir? (config : Config) (language : Language) : Option String :=
  (config.out.find? fun (name, _) => Language.named? name == some language).map fun (_, dir) =>
    Path.join config.base dir

/-- The directory of a named client. -/
def sdkDir? (config : Config) (name : String) : Option String :=
  (config.sdk.lookup name).map (Path.join config.base)

/-- The directory of a client for which there are no settings. -/
def usualDir (name : String) : String :=
  Path.joinAll "packages/sdk" [name, "src/gen"]

/-- **Where the files of a language go**, if a directory or a name of a client may be given. -/
def outDir (config : Config) (dir sdk : Option String) (language : Language) : String :=
  match dir, sdk with
  | some dir, _ => dir
  | none, some sdk => (config.sdkDir? sdk).getD (usualDir sdk)
  | none, none => (config.languageDir? language).getD (usualDir ("sdk-" ++ language.id))

end Config

end ClientGen
